import RamlDoc.Proofs.DecimalTokens

/-!
# Runs on aligned texts

Two scanners on aligned texts find the same tokens up to the style of decimals, or part. Where only
one of the texts has a decimal in quotes, an unquoted decimal takes the gap behind it along, so the
scanners meet again only when what stands between the tokens is passed (`Ready`).
-/

namespace RamlDoc.Yaml.Scanner

open Cursor

section

variable {s t : Scanner} {c : Cursor} {x : Char} {rest : List Char} {tabs : Bool}

/-! ## What stands between tokens -/

theorem skipToToken_eq {fuel fuel' : Nat} (hf : s.cursor.rest.length < fuel)
    (hf' : s.cursor.rest.length < fuel') : s.skipToToken fuel = s.skipToToken fuel' := by
  induction fuel generalizing s fuel' with
  | zero => omega
  | succ fuel ih =>
    obtain ⟨fuel', rfl⟩ : ∃ n, fuel' = n + 1 := ⟨fuel' - 1, by omega⟩
    have hlength := (advances_passBlanks (s.inFlow || !s.keyAllowed) s.cursor).length_le
    rw [skipToToken_succ, skipToToken_succ]
    split
    next hbreak =>
      have hshorter := length_readBreak_lt hbreak
      refine ih ?_ ?_
      · exact Nat.lt_of_lt_of_le hshorter (by omega)
      · exact Nat.lt_of_lt_of_le hshorter (by omega)
    next => rfl

/-- The scanner behind what stands between tokens. -/
def skipped (s : Scanner) : Scanner := s.skipToToken (s.cursor.rest.length + 1)

theorem skipToToken_rounds (h : s.cursor.Valid) : s.skipToToken s.cursor.rounds = s.skipped :=
  skipToToken_eq h.length_lt_rounds (Nat.lt_succ_self _)

theorem skipped_eq (s : Scanner) : s.skipped =
    if (passBlanks (s.inFlow || !s.keyAllowed) s.cursor).peek?.any isBreak then
      skipped
        { s with
          cursor := (passBlanks (s.inFlow || !s.keyAllowed) s.cursor).skipBreak
          keyAllowed := s.keyAllowed || !s.inFlow }
    else s.goto (passBlanks (s.inFlow || !s.keyAllowed) s.cursor) := by
  have hlength := (advances_passBlanks (s.inFlow || !s.keyAllowed) s.cursor).length_le
  rw [skipped, skipToToken_succ]
  split
  next hbreak =>
    have hshorter := length_readBreak_lt hbreak
    exact skipToToken_eq (Nat.lt_of_lt_of_le hshorter hlength) (Nat.lt_succ_self _)
  next => rfl

theorem passBlanks_of_space (h : c.rest = ' ' :: rest) :
    passBlanks tabs c = passBlanks tabs (c.skip 1) := by
  have hmark : (c.column = 0 && c.sees '\ufeff') = false := by
    rw [sees, peek?, h]
    exact Bool.and_false _
  have hmark' : ((c.skip 1).column = 0 && (c.skip 1).sees '\ufeff') = false := by
    have hcolumn : (c.skip 1).column ≠ 0 := Nat.succ_ne_zero c.column
    rw [decide_eq_false hcolumn]
    rfl
  unfold passBlanks
  rw [hmark, hmark', if_neg Bool.false_ne_true, if_neg Bool.false_ne_true, skipWhile_cons h]
  rfl

theorem passBlanks_of_stop (h : ∀ x ∈ c.rest.head?,
    x ≠ '\ufeff' ∧ x ≠ '#' ∧ (x = ' ' || (tabs && x = '\t')) = false) : passBlanks tabs c = c := by
  have hsees : ∀ mark, (∀ x ∈ c.rest.head?, x ≠ mark) → c.sees mark = false := fun mark hne =>
    decide_eq_false fun heq => hne mark heq rfl
  unfold passBlanks
  rw [hsees '\ufeff' fun x hx => (h x hx).1, Bool.and_false, if_neg Bool.false_ne_true,
    (Cursor.skipWhile_of_not fun x hx => (h x hx).2.2).2, skipComment,
    hsees '#' fun x hx => (h x hx).2.1, if_neg Bool.false_ne_true]

theorem passBlanks_of_break {text rest : List Char} (h : BreakAt c.rest text rest) :
    passBlanks tabs c = c := by
  obtain ⟨x, tail, hrest, hx⟩ := h.head
  refine passBlanks_of_stop fun y hy => ?_
  rw [hrest] at hy
  obtain rfl := Option.some.inj hy
  refine ⟨?_, ?_, isBlank_of_isBreak tabs _ hx⟩
  · rintro rfl
    cases hx
  · rintro rfl
    cases hx

theorem skipped_of_break {text rest : List Char} (h : BreakAt s.cursor.rest text rest) :
    s.skipped = skipped { s with
      cursor := s.cursor.skipBreak
      keyAllowed := s.keyAllowed || !s.inFlow } := by
  obtain ⟨x, tail, hrest, hx⟩ := h.head
  have hbreak : s.cursor.peek?.any isBreak = true := by
    rw [peek?, hrest]
    exact hx
  rw [skipped_eq, passBlanks_of_break h, if_pos hbreak]

theorem skipped_of_break_of_key {text rest : List Char} (hkey : s.keyAllowed = true)
    (h : BreakAt s.cursor.rest text rest) :
    s.skipped = (s.goto s.cursor.readBreak.2).skipped := by
  rw [skipped_of_break h, hkey, Bool.true_or, goto, hkey]
  rfl

theorem skipped_of_space (h : s.cursor.rest = ' ' :: rest) :
    s.skipped = (s.goto (s.cursor.skip 1)).skipped := by
  rw [skipped_eq, skipped_eq (s.goto _), passBlanks_of_space h]
  rfl

/-- Where a key may begin, the scanner stops at a tab. -/
theorem skipped_of_tab (hflow : s.inFlow = false) (hkey : s.keyAllowed = true)
    (h : s.cursor.rest = '\t' :: rest) : s.skipped.cursor.sees '\t' = true := by
  have hstop : passBlanks (s.inFlow || !s.keyAllowed) s.cursor = s.cursor := by
    rw [hflow, hkey]
    refine passBlanks_of_stop fun y hy => ?_
    rw [h] at hy
    obtain rfl := Option.some.inj hy
    decide
  have hbreak : s.cursor.peek?.any isBreak = false := by
    rw [peek?, h]
    rfl
  rw [skipped_eq s, hstop, hbreak]
  change s.cursor.sees '\t' = true
  rw [sees, peek?, h]
  rfl

/-- A gap in an unquoted scalar passes what may be passed between tokens, unless there is a tab. -/
theorem skipped_of_gap {indent? : Option Nat} {fuel : Nat} {gap gap' : Gap}
    (hflow : s.inFlow = false) (hkey : s.keyAllowed = true) (hbroken : gap.broken = true)
    (h : Gap.read indent? fuel gap s.cursor = .ok (gap', c)) :
    gap'.broken = true ∧ ((s.goto c).skipped = s.skipped ∨ s.skipped.cursor.sees '\t' = true) := by
  induction fuel generalizing s gap with
  | zero =>
    obtain ⟨rfl, rfl⟩ := Prod.mk.inj (Except.ok.inj h)
    exact ⟨hbroken, .inl rfl⟩
  | succ fuel ih =>
    rcases s.cursor.atText_or_blank with htext | ⟨x, rest, hrest, hspace | hbreak⟩
    · rw [Gap.read_of_text htext] at h
      obtain ⟨rfl, rfl⟩ := Prod.mk.inj (Except.ok.inj h)
      exact ⟨hbroken, .inl rfl⟩
    · rw [Gap.read_of_space hrest hspace, if_pos hbroken] at h
      rcases cases_of_ite h with ⟨-, h⟩ | ⟨-, h⟩
      · cases h
      obtain ⟨hbroken', hmore⟩ := @ih (s.goto (s.cursor.skip 1)) gap hflow hkey hbroken h
      refine ⟨hbroken', ?_⟩
      rcases eq_of_isSpace hspace with rfl | rfl
      · rw [skipped_of_space hrest]
        exact hmore
      · exact .inr (skipped_of_tab hflow hkey hrest)
    · obtain ⟨text, rest', hat⟩ := exists_breakAt hrest hbreak
      rw [Gap.read_of_break hat, if_pos hbroken] at h
      rw [skipped_of_break_of_key hkey hat]
      refine @ih (s.goto s.cursor.readBreak.2) _ hflow hkey ?_ h
      exact hbroken

end

/-! ## A decimal that one text has in quotes -/

section

variable {s : Scanner} {x : Char} {rest : List Char}

theorem addToken_digit (hrest : s.cursor.rest = x :: rest) (hx : x.isDigit = true) :
    s.addToken x = s.addPlainScalar := by
  have hne : ∀ y, y.isDigit = false → x ≠ y := by
    rintro y hy rfl
    rw [hx] at hy
    cases hy
  have hstart : s.startsPlain = true := by
    unfold startsPlain peek?
    dsimp only
    rw [hrest]
    simp [hne, not_isSpace_of_isDigit hx, not_isBreak_of_isDigit hx]
  unfold addToken
  dsimp only
  rw [atBoundary_of_ne hrest (hne '-' (by decide)), atBoundary_of_ne hrest (hne '.' (by decide)),
    hstart]
  simp [hne]

theorem addToken_quote (hrest : s.cursor.rest = '"' :: rest) :
    s.addToken '"' = s.addQuotedScalar false := by
  unfold addToken
  dsimp only
  rw [atBoundary_of_ne hrest (by decide), atBoundary_of_ne hrest (by decide)]
  simp

end

section

variable {p : Phase} {s s' t t' : Scanner}

theorem skipped_aligned (h : ScannersAligned p s s') : GoOn s.skipped s'.skipped :=
  skipToToken_aligned h (Nat.lt_succ_self _) (Nat.lt_succ_self _)

/-- Two scanners find the same tokens from here on, or one of them fails. -/
inductive Ready (s s' : Scanner) : Prop
  /-- They are aligned behind what stands between tokens. -/
  | goOn (h : GoOn s.skipped s'.skipped)
  /-- They are at the ends of their texts. -/
  | ended (h : TokensAligned s s') (hnil : s.cursor.rest = []) (hnil' : s'.cursor.rest = [])
  /-- The second has a tab where a key may begin. -/
  | stuck (h : s'.skipped.cursor.sees '\t' = true)

/-- An unquoted scalar takes the gap behind it along, a quoted one does not. -/
theorem ready_of_gap {d d' g : Cursor} {blanks cs ds : List Char} {indent? : Option Nat} {gap : Gap}
    (h : ScannersAligned p t t') (hflow : t.inFlow = false) (hd : t.cursor.Advances d)
    (hd' : t'.cursor.Advances d') (hrest : d.rest = blanks ++ cs) (hrest' : d'.rest = ds)
    (hblanks : ∀ x ∈ blanks, isSpace x = true ∨ isBreak x = true) (hend : AtLineEnd ds)
    (haligned : Aligned .text cs ds)
    (hgap : Gap.read indent? d.rounds Gap.empty d = .ok (gap, g)) :
    Ready { t.goto g with keyAllowed := gap.broken } { t'.goto d' with keyAllowed := false } := by
  have hvalid := hd.valid h.paired.valid
  have hvalid' := hd'.valid h.paired.valid'
  have hheads := haligned.heads
  cases hheads with
  | ends =>
    refine .ended ⟨h.tokens, h.count, h.counted, h.unended, h.indent, h.outerIndents, h.inFlow⟩ ?_
      hrest'
    refine Gap.rest_of_blanks hvalid (fun x hx => hblanks x ?_) hgap
    rwa [hrest, List.append_nil] at hx
  | char hx =>
    have hbreak := hend _ rfl
    rw [hx] at hbreak
    cases hbreak
  | @«break» _ _ text rest rest' q hbreak hbreak' _ hnext =>
    have hat : BreakAt d'.rest text rest' := hrest' ▸ hbreak'
    obtain ⟨-, hrest₂, hcolumn₂, hline₂, hadvances₂⟩ := readBreak_spec hat
    -- Behind the first break both cursors are at column 0, and the gap has still to go on.
    obtain ⟨e, fuel, gap', he, hline, hrest₁, hcolumn, hbroken, hmore⟩ :=
      Gap.read_of_blanks hrest hblanks hbreak hvalid.length_lt_rounds hgap
    have hpaired : Paired q e d'.readBreak.2 := by
      refine ⟨?_, hcolumn.trans hcolumn₂.symm, he.valid hvalid, hadvances₂.valid hvalid'⟩
      rwa [hrest₁, hrest₂]
    have htogether : Together t.cursor t'.cursor e d'.readBreak.2 :=
      ⟨hd.trans he, hd'.trans hadvances₂, .inr ⟨Nat.lt_of_le_of_lt hd.line_le hline,
        Nat.lt_of_le_of_lt hd'.line_le hline₂⟩⟩
    obtain ⟨r, hr⟩ := skipped_aligned ((h.goto hpaired htogether).allow true)
    obtain ⟨hgap', hskipped⟩ :=
      @skipped_of_gap { t.goto e with keyAllowed := true } g indent? fuel gap' gap hflow rfl hbroken
        hmore
    have hright : ({ t'.goto d' with keyAllowed := false } : Scanner).skipped =
        ({ t'.goto d'.readBreak.2 with keyAllowed := true } : Scanner).skipped := by
      have hflow' : (!t'.inFlow) = true := by rw [← h.inFlow, hflow]; rfl
      refine (skipped_of_break hat).trans ?_
      change ({ t'.goto d'.readBreak.2 with keyAllowed := !t'.inFlow } : Scanner).skipped = _
      rw [hflow']
    rw [hgap']
    rcases hskipped with hskipped | htab
    · refine .goOn ⟨r, ?_⟩
      rw [hright]
      exact hskipped ▸ hr
    · refine .stuck ?_
      have hsees := hr.paired.sees_eq (by decide : isBreak '\t' = false)
        fun _ => ⟨by decide, by decide⟩
      rw [hright, ← hsees]
      exact htab
  | seam hp => cases hp

/-- A decimal that only the second text has in quotes. -/
theorem addDecimal_aligned (h : ScannersAligned p s s')
    (hseam : Seam s.cursor.rest s'.cursor.rest) :
    Both (fun t t' => Ready t t' ∨ Parted t t') s.addPlainScalar (s'.addQuotedScalar false) := by
  obtain ⟨hfree, hfree'⟩ := colonFree_of_seam hseam
  generalize hrest : s.cursor.rest = cs at hseam
  generalize hrest' : s'.cursor.rest = ds at hseam
  cases hseam with
  | @mk decimal blanks cs ds hdecimal hblanks hend hend' haligned =>
  refine (noteKey_aligned h).bind fun t t' ht => ?_
  have hquoted := Quoted.read_of_decimal h.paired.valid' hrest' hdecimal
  rw [ht.left, ht.right, hquoted]
  rintro u u' hu hu'
  obtain ⟨scalar, hscalar, hu⟩ := exists_of_bind_eq_ok hu
  obtain rfl := Except.ok.inj hu
  obtain rfl := Except.ok.inj hu'
  have hskip := (advances_skip_one hrest' (by decide)).trans (Quoted.readFrom_spec hquoted).2
  by_cases htext : scalar.text = decimal
  · left
    have hmore : ∀ x ∈ (blanks ++ cs).head?, isSpace x = true ∨ isBreak x = true := by
      cases blanks with
      | nil => exact fun x hx => .inr (hend x hx)
      | cons y blanks => exact fun x hx => Option.some.inj hx ▸ hblanks y List.mem_cons_self
    have hflow := Plain.flow_of_read_decimal hrest hdecimal hscalar htext
    rw [hflow] at hscalar
    obtain ⟨gap, hgap, hbroken⟩ := Plain.gap_of_read_decimal hrest hdecimal hmore h.paired.valid
      hscalar htext
    have hpush : ScannersAligned p (t.push (.scalar scalar.text true))
        (t'.push (.scalar decimal false)) :=
      ht.aligned.push (by rw [htext, Token.unstyled, Token.unstyled, hdecimal]; rfl) nofun
    have hblank : (s.cursor.skip decimal.length).rest = blanks ++ cs := by
      rw [skip, hrest, List.drop_left]
    have hbehind : (s'.cursor.skip (decimal.length + 2)).rest = ds := by
      rw [skip, hrest']
      simp [List.drop_append]
    have hpass : t.cursor.Advances (s.cursor.skip decimal.length) := by
      rw [ht.left]
      exact advances_decimal hrest hdecimal
    have hpass' : t'.cursor.Advances (s'.cursor.skip (decimal.length + 2)) := by
      rw [ht.right]
      exact hskip
    rw [hbroken]
    exact ready_of_gap hpush hflow hpass hpass' hblank hbehind hblanks hend' haligned hgap
  · -- The unquoted scalar goes on behind the decimal or ends before its comma.
    right
    refine ht.aligned.parted ⟨htext, .inr (comma_mem_of_isDecimal hdecimal)⟩ ?_ ?_ _ _ _ _
    · rw [ht.left]
      exact hfree.sealed (Plain.readFrom_spec hscalar).2
    · rw [ht.right]
      exact hfree'.sealed hskip

end

end RamlDoc.Yaml.Scanner
