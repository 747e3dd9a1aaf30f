import RamlDoc.Proofs.ScalarsAdvance
import RamlDoc.Proofs.ScalarsAligned

/-!
# Quoted scalars in aligned texts

A quoted scalar is the same in aligned texts, unless it meets a decimal that the second text has in
quotes. In that case the text of the first scalar goes on with the decimal, and that of the second
ends there or goes on with a quote.
-/

namespace RamlDoc.Yaml.Quoted

open Cursor

variable {p : Phase} {c c' d d' : Cursor} {single : Bool} {fuel fuel' : Nat} {before : List Char}

/-- What two runs of characters that are read together tell. -/
structure RunAligned (single : Bool) (c c' : Cursor) (r r' : List Char × Stop × Cursor) : Prop where
  text : r.1 = r'.1
  stop : r.2.1 = r'.2.1
  closes : r.2.2.sees (closingQuote single) = r'.2.2.sees (closingQuote single)
  paired : ∃ q, Paired q r.2.2 r'.2.2
  together : Together c c' r.2.2 r'.2.2

/-- What two runs of characters tell that meet a decimal which the second text has in quotes. -/
structure RunParted (single : Bool) (c c' : Cursor) (r r' : List Char × Stop × Cursor) : Prop where
  texts : ∃ seen decimal, isDecimal decimal = true ∧ seen ++ decimal <+: r.1.reverse ∧
    ((r'.2.2.sees (closingQuote single) = true ∧ r'.1.reverse = seen) ∨
      seen ++ ['"'] <+: r'.1.reverse)
  left : c.Sealed r.2.2
  right : c'.Sealed r'.2.2

/-- What two runs of characters tell. -/
def RunOutcome (single : Bool) (c c' : Cursor) (r r' : List Char × Stop × Cursor) : Prop :=
  RunAligned single c c' r r' ∨ RunParted single c c' r r'

theorem RunOutcome.after {r r' : List Char × Stop × Cursor} (htogether : Together c c' d d')
    (h : RunOutcome single d d' r r') : RunOutcome single c c' r r' := by
  rcases h with h | h
  · exact .inl ⟨h.text, h.stop, h.closes, h.paired, htogether.trans h.together⟩
  · exact .inr ⟨h.texts, h.left.of_advances htogether.left, h.right.of_advances htogether.right⟩

/-! ## Runs -/

/-- Reads what follows a quote in a scalar in single quotes: one more quote, or nothing. -/
def afterQuote (fuel : Nat) (before : List Char) (c : Cursor) :
    Except ReadError (List Char × Stop × Cursor) :=
  if (c.skip 1).sees '\'' then readRun true fuel ('\'' :: before) (c.skip 2)
  else .ok (before, .other, c)

/-- Reads what follows a backslash: an escaped line break, or an escape and what follows it. -/
def afterBackslash (single : Bool) (fuel : Nat) (before : List Char) (c : Cursor) :
    Except ReadError (List Char × Stop × Cursor) :=
  if (c.skip 1).peek?.any isBreak then .ok (before, .escapedBreak, (c.skip 1).skipBreak)
  else
    match escape? (c.skip 1).rest with
    | some (y, count) => readRun single fuel (y :: before) (c.skip (count + 1))
    | none => .error .malformedEscape

theorem readRun_of_char {x : Char} {rest : List Char} (hrest : c.rest = x :: rest) :
    readRun single (fuel + 1) before c =
      if isSpace x || isBreak x then .ok (before, .other, c)
      else if single then
        if x = '\'' then afterQuote fuel before c
        else readRun single fuel (x :: before) (c.skip 1)
      else if x = '"' then .ok (before, .other, c)
      else if x = '\\' then afterBackslash single fuel before c
      else readRun single fuel (x :: before) (c.skip 1) := by
  have hskip := skip_rest hrest
  rw [readRun, hrest]
  unfold afterQuote afterBackslash sees peek?
  rw [hskip]
  cases single with
  | false => rfl
  | true => simp only [decide_eq_true_eq, if_true]

theorem readRun_of_inner {x : Char} {rest : List Char} (hrest : c.rest = x :: rest)
    (hx : x.isDigit = true ∨ x = ',') :
    readRun single (fuel + 1) before c = readRun single fuel (x :: before) (c.skip 1) := by
  have hblank : isSpace x = false ∧ isBreak x = false := by
    rcases hx with hx | rfl
    · exact ⟨not_isSpace_of_isDigit hx, not_isBreak_of_isDigit hx⟩
    · decide
  have hne : ∀ y, y.isDigit = false → y ≠ ',' → x ≠ y := by
    rintro y hdigit hcomma rfl
    rcases hx with hx | hx
    · rw [hdigit] at hx
      cases hx
    · exact hcomma hx
  rw [readRun_of_char hrest]
  simp only [hblank, Bool.or_self, Bool.false_eq_true, if_false, hne '\'' (by decide) (by decide),
    hne '"' (by decide) (by decide), hne '\\' (by decide) (by decide), ite_self]

theorem readRun_of_decimal {decimal more : List Char} (hrest : c.rest = decimal ++ more)
    (hdecimal : ∀ x ∈ decimal, x.isDigit = true ∨ x = ',') :
    readRun single (decimal.length + fuel) before c =
      readRun single fuel (decimal.reverse ++ before) (c.skip decimal.length) := by
  induction decimal generalizing c before with
  | nil => rw [List.length_nil, Nat.zero_add, skip_zero, List.reverse_nil, List.nil_append]
  | cons x decimal ih =>
    have hnext := @ih _ (x :: before) (skip_rest hrest) fun y hy =>
      hdecimal y (List.mem_cons_of_mem x hy)
    rw [List.length_cons, Nat.add_right_comm, readRun_of_inner hrest (hdecimal x List.mem_cons_self),
      hnext, skip_skip, Nat.add_comm 1, List.reverse_cons, List.append_assoc, List.singleton_append]

/-- A decimal in a quoted scalar belongs to the text. -/
theorem prefix_of_readRun {decimal more : List Char} {r : List Char × Stop × Cursor}
    (hrest : c.rest = decimal ++ more) (hdecimal : ∀ x ∈ decimal, x.isDigit = true ∨ x = ',')
    (hf : c.rest.length < fuel) (h : readRun single fuel before c = .ok r) :
    before.reverse ++ decimal <+: r.1.reverse := by
  rw [hrest, List.length_append] at hf
  obtain ⟨fuel, rfl⟩ : ∃ n, fuel = decimal.length + n := ⟨fuel - decimal.length, by omega⟩
  rw [readRun_of_decimal hrest hdecimal] at h
  have htext := (readRun_spec h).1
  rwa [List.reverse_append, List.reverse_reverse] at htext

theorem readRun_of_seam (h : Seam c.rest c'.rest) (hf : c.rest.length < fuel) :
    Both (RunParted single c c') (readRun single fuel before c)
      (readRun single (fuel' + 1) before c') := by
  intro r r' hr hr'
  obtain ⟨hfree, hfree'⟩ := colonFree_of_seam h
  refine ⟨?_, hfree.sealed (readRun_spec hr).2, hfree'.sealed (readRun_spec hr').2⟩
  generalize hcs : c.rest = cs at h
  generalize hds : c'.rest = ds at h
  cases h with
  | @mk decimal blanks cs ds hdecimal =>
    have htext := prefix_of_readRun hcs (fun x => digit_or_comma_of_isDecimal hdecimal) hf hr
    refine ⟨before.reverse, decimal, hdecimal, htext, ?_⟩
    rw [readRun, hds] at hr'
    cases single with
    | false =>
      obtain rfl := Except.ok.inj hr'
      refine .inl ⟨?_, rfl⟩
      rw [sees, peek?, hds]
      rfl
    | true =>
      have hnext : readRun true fuel' ('"' :: before) (c'.skip 1) = .ok r' := hr'
      have := (readRun_spec hnext).1
      rw [List.reverse_cons] at this
      exact .inr this

/-- Two runs stay together if they do behind some characters. -/
def GoesOn (single : Bool) (fuel fuel' : Nat) (before : List Char) (c c' : Cursor) : Prop :=
  ∀ {x : Char} {count : Nat} {q : Phase}, Paired q (c.skip (count + 1)) (c'.skip (count + 1)) →
    Together c c' (c.skip (count + 1)) (c'.skip (count + 1)) →
      Both (RunOutcome single c c') (readRun single fuel (x :: before) (c.skip (count + 1)))
        (readRun single fuel' (x :: before) (c'.skip (count + 1)))

theorem readRun_stop (h : Paired p c c')
    (hcloses : c.sees (closingQuote single) = c'.sees (closingQuote single)) :
    Both (RunOutcome single c c')
      (.ok (before, .other, c) : Except ReadError (List Char × Stop × Cursor))
      (.ok (before, .other, c')) :=
  .ok (.inl ⟨rfl, rfl, hcloses, ⟨p, h⟩, .refl c c'⟩)

theorem afterQuote_aligned {q : Phase} (h : Paired p c c') (hp : p.near = true)
    (hcloses : c.sees '\'' = true) (hcloses' : c'.sees '\'' = true)
    (hpaired : Paired q (c.skip 1) (c'.skip 1)) (hnext : GoesOn true fuel fuel' before c c') :
    Both (RunOutcome true c c') (afterQuote fuel before c) (afterQuote fuel' before c') := by
  have hsame := hpaired.sees_eq (by decide : isBreak '\'' = false) fun _ => by decide
  unfold afterQuote
  rw [← hsame]
  split
  next hdouble =>
    obtain ⟨rest, hrest⟩ := List.head?_eq_some_iff.1 (of_decide_eq_true hcloses)
    have hsecond := of_decide_eq_true hdouble
    rw [peek?, skip_rest hrest] at hsecond
    obtain ⟨tail, rfl⟩ := List.head?_eq_some_iff.1 hsecond
    have hinner : ∀ x ∈ ['\'', '\''], IsInner x := by simp [IsInner, isBreak]
    have hsplit : c.rest = ['\'', '\''] ++ tail := hrest
    obtain ⟨-, ⟨r, hr, -⟩, hmoved⟩ := h.run hp hsplit hinner
    exact hnext hr hmoved
  next => exact readRun_stop h (hcloses.trans hcloses'.symm)

theorem afterBackslash_aligned {q : Phase} (hpaired : Paired q (c.skip 1) (c'.skip 1))
    (hq : q.near = true) (htogether : Together c c' (c.skip 1) (c'.skip 1))
    (hnext : GoesOn single fuel fuel' before c c') :
    Both (RunOutcome single c c') (afterBackslash single fuel before c)
      (afterBackslash single fuel' before c') := by
  unfold afterBackslash
  rw [← hpaired.any_isBreak]
  split
  next hbreak =>
    obtain ⟨-, r, hr, hmoved, hnear⟩ := hpaired.readBreak
    have hgap : r ≠ .gap := fun heq => by rw [heq] at hnear; cases hnear hq
    have hquote : isBreak (closingQuote single) = false := by cases single <;> decide
    have hsees := hr.sees_eq hquote fun heq => absurd heq hgap
    exact .ok (.inl ⟨rfl, rfl, hsees, ⟨r, hr⟩, htogether.trans hmoved⟩)
  next =>
    cases hescape : escape? (c.skip 1).rest with
    | none => exact .error_left _ _
    | some found =>
      -- An escape holds neither a line break nor a colon, so the second text has it too.
      obtain ⟨y, count⟩ := found
      obtain ⟨hcount, hinner, hagain⟩ := escape?_eq_some hescape
      have hsplit : (c.skip 1).rest = (c.skip 1).rest.take count ++ (c.skip 1).rest.drop count :=
        (List.take_append_drop _ _).symm
      obtain ⟨⟨tail, htail⟩, ⟨r, hr, -⟩, hmoved⟩ := hpaired.run hq hsplit hinner
      have htake : (c'.skip 1).rest.take count = (c.skip 1).rest.take count := by
        rw [htail, List.take_left' hcount]
      rw [hagain _ htake]
      rw [hcount, skip_skip, skip_skip, Nat.add_comm] at hr hmoved
      exact hnext hr (htogether.trans hmoved)

theorem readRun_aligned (h : Paired p c c') (hf : c.rest.length < fuel)
    (hf' : c'.rest.length < fuel') :
    Both (RunOutcome single c c') (readRun single fuel before c)
      (readRun single fuel' before c') := by
  induction fuel generalizing p c c' before fuel' with
  | zero => omega
  | succ fuel ih =>
    obtain ⟨fuel', rfl⟩ : ∃ n, fuel' = n + 1 := ⟨fuel' - 1, by omega⟩
    cases h.heads with
    | ends hrest hrest' =>
      rw [readRun, readRun, hrest, hrest']
      exact readRun_stop h (by rw [sees, sees, peek?, peek?, hrest, hrest'])
    | @char x rest rest' q hrest hrest' hx hq hpaired htogether =>
      have hcloses : c.sees (closingQuote single) = c'.sees (closingQuote single) := by
        rw [sees, sees, peek?, peek?, hrest, hrest']
        rfl
      have hnext : GoesOn single fuel fuel' before c c' := by
        intro y count r hr hmoved
        have hpos : 0 < count + 1 := Nat.succ_pos count
        have hlength := length_skip_lt hrest hpos
        have hlength' := length_skip_lt hrest' hpos
        exact (ih hr (by omega) (by omega)).mono fun _ _ => .after hmoved
      rw [readRun_of_char hrest, readRun_of_char hrest']
      split
      · exact readRun_stop h hcloses
      next hblank =>
      have hnear : p.near = true := by
        rcases hq with ⟨hp, -⟩ | ⟨-, hspace, -⟩
        · exact hp
        · rw [hspace] at hblank
          exact absurd rfl hblank
      split
      next hsingle =>
        subst hsingle
        split
        next hquote =>
          have hsees : c.sees '\'' = true := by rw [sees, peek?, hrest, hquote]; rfl
          exact afterQuote_aligned h hnear hsees (hcloses.symm.trans hsees) hpaired hnext
        next => exact hnext hpaired htogether
      next =>
        split
        · exact readRun_stop h hcloses
        split
        next hback =>
          exact afterBackslash_aligned hpaired (hq.near hnear (by rw [hback]; decide)) htogether
            hnext
        next => exact hnext hpaired htogether
    | «break» hb hb' =>
      obtain ⟨x, rest, hrest, hx⟩ := hb.head
      obtain ⟨y, rest', hrest', hy⟩ := hb'.head
      have hquote : isBreak (closingQuote single) = false := by cases single <;> decide
      rw [readRun_of_char hrest, readRun_of_char hrest', hx, hy, Bool.or_true, Bool.or_true]
      exact readRun_stop h (by rw [sees_of_breakAt hb hquote, sees_of_breakAt hb' hquote])
    | seam hp hseam => exact (readRun_of_seam hseam hf).mono fun _ _ => .inr

/-! ## Scalars -/

theorem afterRun_of_parted {run run' : List Char × Stop × Cursor}
    (h : RunParted single c c' run run') :
    Both (ScannedScalar.Parted c c') (afterRun single fuel run) (afterRun single fuel' run') := by
  intro r r' hr hr'
  obtain ⟨⟨seen, decimal, hdecimal, htext, htext'⟩, hsealed, hsealed'⟩ := h
  obtain ⟨hmore, hadvances⟩ := afterRun_spec hr
  obtain ⟨hmore', hadvances'⟩ := afterRun_spec hr'
  refine ⟨textsApart_of_decimal hdecimal (htext.trans hmore) ?_, hsealed.advance hadvances,
    hsealed'.advance hadvances'⟩
  rcases htext' with ⟨hquote, rfl⟩ | htext'
  · unfold afterRun at hr'
    rw [if_pos hquote] at hr'
    obtain rfl := Except.ok.inj hr'
    exact .inl rfl
  · exact .inr (htext'.trans hmore')

theorem readFrom_aligned (h : Paired p c c') :
    Both (ScannedScalar.Outcome c c') (readFrom single fuel before c)
      (readFrom single fuel' before c') := by
  induction fuel generalizing p c c' before fuel' with
  | zero => exact .error_left _ _
  | succ fuel ih =>
    cases fuel' with
    | zero => exact .error_right _ _
    | succ fuel' =>
      rw [readFrom_succ, readFrom_succ,
        h.atBoundary_eq (by decide : isBreak '-' = false) (by decide) (by decide),
        h.atBoundary_eq (by decide : isBreak '.' = false) (by decide) (by decide), h.isEmpty_eq]
      split
      · exact .error_left _ _
      split
      · exact .error_left _ _
      refine (readRun_aligned h h.valid.length_lt_rounds h.valid'.length_lt_rounds).bind ?_
      rintro ⟨before, stop, d⟩ ⟨before', stop', d'⟩ (hrun | hrun)
      · obtain ⟨rfl, rfl, hcloses, ⟨q, hpaired⟩, htogether⟩ := hrun
        dsimp only at *
        unfold afterRun
        dsimp only
        rw [hcloses]
        split
        next hquote =>
          obtain ⟨r, hr, hmoved, -⟩ := hpaired.skip_mark (hcloses.trans hquote)
            (by cases single <;> decide) (by cases single <;> decide)
          exact .ok (.inl ⟨rfl, rfl, ⟨r, hr⟩, htogether.trans hmoved⟩)
        next =>
          refine (Gap.read_aligned hpaired hpaired.valid.length_lt_rounds
            hpaired.valid'.length_lt_rounds).bind fun gap gap' hgap => ?_
          obtain ⟨heq, ⟨r, hr, -⟩, hmoved, -⟩ := hgap
          rw [heq]
          exact (ih hr).mono fun _ _ => .after (htogether.trans hmoved)
      · exact (afterRun_of_parted hrun).mono fun _ _ => .inr

/-- A quoted scalar, behind its opening quote. -/
theorem read_aligned (h : Paired p (c.skip 1) (c'.skip 1)) :
    Both (ScannedScalar.Outcome (c.skip 1) (c'.skip 1)) (read single c) (read single c') :=
  readFrom_aligned h

end RamlDoc.Yaml.Quoted
