import RamlDoc.Proofs.RunsAligned

/-!
# Scans of aligned texts

A round of two scanners on aligned texts keeps them ready or parts them (`run_aligned`), so the
tokens of two aligned texts are the same up to the style of decimals or part at a scalar
(`scan_aligned`).
-/

namespace RamlDoc.Yaml

open Cursor

/-- Two lists of tokens are the same up to the style of decimals, or part at a scalar. -/
def TokensSameOrPart (tokens others : List Token) : Prop :=
  tokens.map Token.unstyled = others.map Token.unstyled ∨ TokensAlike True tokens others

namespace Scanner

section

variable {p : Phase} {s s' t t' : Scanner} {c c' : Cursor} {fuel fuel' : Nat}

/-! ## The last round -/

theorem closeBlocksFrom_closeBlocksFrom {low column : Int} (h : low ≤ column) (s : Scanner) :
    closeBlocksFrom low (closeBlocksFrom column s.outerIndents s).outerIndents
        (closeBlocksFrom column s.outerIndents s) = closeBlocksFrom low s.outerIndents s := by
  generalize houter : s.outerIndents = outer
  induction outer generalizing s with
  | nil => rw [closeBlocksFrom, houter]
  | cons indent outer ih =>
    rw [closeBlocksFrom]
    split
    next hcolumn =>
      rw [closeBlocksFrom, if_pos (Int.lt_of_le_of_lt h hcolumn)]
      exact ih _ rfl
    next => rw [houter]

/-- Closing some blocks before all others makes no difference. -/
theorem closeBlocks_closeBlocks {low column : Int} (h : low ≤ column) (s : Scanner) :
    (s.closeBlocks column).closeBlocks low = s.closeBlocks low := by
  obtain ⟨_, _, _, _, hframe⟩ := closeBlocks_frame s column
  have hflow : (s.closeBlocks column).inFlow = s.inFlow := by
    rw [hframe]
    rfl
  unfold closeBlocks at hflow ⊢
  cases hs : s.inFlow with
  | true =>
    rw [hs] at hflow
    simp only [hs, if_true] at hflow ⊢
  | false =>
    rw [hs] at hflow
    simp only [Bool.false_eq_true, if_false] at hflow ⊢
    rw [hflow]
    exact closeBlocksFrom_closeBlocksFrom h s

theorem finish_aligned (h : TokensAligned s s') :
    Both TokensSameOrPart s.finish s'.finish := by
  intro tokens tokens' htokens htokens'
  left
  rw [finish_spec htokens, finish_spec htokens', List.map_append, List.map_append,
    List.map_reverse, List.map_reverse, (h.closeBlocks (-1)).tokens]

/-- Where only the blocks are left to close it does not matter how many of them have been closed. -/
theorem finish_closeBlocks_aligned (h : TokensAligned s s') (column column' : Nat) :
    Both TokensSameOrPart (s.closeBlocks column).finish (s'.closeBlocks column').finish := by
  intro tokens tokens' htokens htokens'
  left
  rw [finish_spec htokens, finish_spec htokens', closeBlocks_closeBlocks (by omega),
    closeBlocks_closeBlocks (by omega), List.map_append, List.map_append, List.map_reverse,
    List.map_reverse, (h.closeBlocks (-1)).tokens]

/-! ## A round -/

/-- What stands between tokens is passed, and only keys and blocks are given up then. -/
theorem settle_eq (hvalid : s.cursor.Valid) (h : s.settle = .ok t) :
    ∃ u, s.skipped.dropStaleKeys = .ok u ∧ t = u.closeBlocks u.cursor.column := by
  obtain ⟨u, hu, h⟩ := exists_of_bind_eq_ok h
  rw [skipToToken_rounds hvalid] at hu
  exact ⟨u, hu, (Except.ok.inj h).symm⟩

theorem cursor_of_settle (hvalid : s.cursor.Valid) (h : s.settle = .ok t) :
    t.cursor = s.skipped.cursor := by
  obtain ⟨u, hu, rfl⟩ := settle_eq hvalid h
  obtain ⟨_, _, rfl, -⟩ := dropStaleKeys_spec hu
  exact (quiet_closeBlocks _ _).cursor

theorem settle_aligned (hvalid : s.cursor.Valid) (hvalid' : s'.cursor.Valid)
    (h : ScannersAligned p s.skipped s'.skipped) :
    Both (ScannersAligned p) s.settle s'.settle := by
  intro t t' ht ht'
  obtain ⟨u, hu, rfl⟩ := settle_eq hvalid ht
  obtain ⟨u', hu', rfl⟩ := settle_eq hvalid' ht'
  have haligned := dropStaleKeys_aligned h _ _ hu hu'
  rw [haligned.paired.column]
  exact haligned.closeBlocks _

/-- A round passes a character. -/
theorem pass_of_settle {x : Char} {u : Scanner} (hvalid : s.cursor.Valid) (ht : s.settle = .ok t)
    (hx : t.cursor.peek? = some x) (hu : t.addToken x = .ok u) :
    (s.cursor.Advances u.cursor ∧ u.cursor.rest.length < s.cursor.rest.length) ∧
      t.cursor.peek?.any isBreak = false := by
  obtain ⟨hpass, hbreak, -⟩ := settle_spec hvalid ht
  obtain ⟨rest, hrest⟩ := List.head?_eq_some_iff.1 hx
  have hnext : isBreak x = false := by
    rw [hx] at hbreak
    exact hbreak
  obtain ⟨hadvances, hshorter, -⟩ := addToken_spec (hpass.valid hvalid) hrest hnext hu
  exact ⟨⟨hpass.trans hadvances, Nat.lt_of_lt_of_le hshorter hpass.length_le⟩, hbreak⟩

/-- At the end of the text, the scanner keeps the tokens and closes blocks. -/
theorem settle_of_nil (hvalid : s.cursor.Valid) (hnil : s.cursor.rest = [])
    (h : s.settle = .ok t) :
    t.cursor.rest = [] ∧ ∃ (u : Scanner) (column : Nat), t = u.closeBlocks column ∧
      u.tokens = s.tokens ∧ u.count = s.count ∧ u.indent = s.indent ∧
      u.outerIndents = s.outerIndents ∧ u.inFlow = s.inFlow := by
  obtain ⟨c, keyAllowed, hskip, hadvances, -⟩ := skipToToken_spec (s.cursor.rest.length + 1) s
  have hcursor := cursor_of_settle hvalid h
  obtain ⟨u, hu, rfl⟩ := settle_eq hvalid h
  rw [skipped, hskip] at hu hcursor
  obtain ⟨possibleKey, outerKeys, rfl, hlength, -⟩ := dropStaleKeys_spec hu
  refine ⟨?_, _, _, rfl, rfl, rfl, rfl, rfl, ?_⟩
  · rw [hcursor]
    have hshort := hadvances.length_le
    rw [hnil, List.length_nil, Nat.le_zero] at hshort
    exact List.eq_nil_of_length_eq_zero hshort
  · unfold inFlow
    cases outerKeys with
    | nil => rw [List.eq_nil_of_length_eq_zero hlength.symm]
    | cons key outerKeys =>
      obtain ⟨_, _, houter⟩ := List.exists_cons_of_length_eq_add_one hlength.symm
      rw [houter]
      rfl

theorem run_of_nil (hvalid : s.cursor.Valid) (hnil : s.cursor.rest = []) {tokens : List Token}
    (h : s.run (fuel + 1) = .ok tokens) : ∃ (u : Scanner) (column : Nat),
      (u.closeBlocks column).finish = .ok tokens ∧
      u.tokens = s.tokens ∧ u.count = s.count ∧ u.indent = s.indent ∧
      u.outerIndents = s.outerIndents ∧ u.inFlow = s.inFlow := by
  rw [run_succ] at h
  obtain ⟨t, ht, h⟩ := exists_of_bind_eq_ok h
  obtain ⟨hend, u, column, rfl, hkept⟩ := settle_of_nil hvalid hnil ht
  rw [peek?, hend] at h
  exact ⟨u, column, h, hkept⟩

/-! ## Runs -/

/-- Tokens that go on with scalars whose texts are apart part there, whatever follows. -/
theorem tokensAlike_of_apart {tokens tokens' rest rest' : List Token} {text text' : List Char}
    {plain plain' : Bool} (hsame : tokens.map Token.unstyled = tokens'.map Token.unstyled)
    (hend : Token.streamEnd ∉ tokens) (hapart : Node.TextsApart text text') :
    TokensAlike True (tokens ++ .scalar text plain :: rest)
      (tokens' ++ .scalar text' plain' :: rest') := by
  induction tokens generalizing tokens' with
  | nil =>
    obtain rfl : tokens' = [] := by simpa using hsame.symm
    exact .cut trivial hapart
  | cons token tokens ih =>
    cases tokens' with
    | nil => cases hsame
    | cons token' tokens' =>
      obtain ⟨htoken, htokens⟩ := List.cons.inj hsame
      rw [List.mem_cons, not_or] at hend
      exact .cons htoken (fun _ heq => hend.1 heq.symm) (ih htokens hend.2)

/-- Scanners that have parted find tokens that part. -/
theorem Parted.run_aligned (h : Parted s s') :
    Both TokensSameOrPart (s.run fuel) (s'.run fuel') := by
  intro tokens tokens' htokens htokens'
  obtain ⟨hsame, hend, hapart, hs, hs'⟩ := h
  obtain ⟨rest, rfl⟩ := hs.run htokens
  obtain ⟨rest', rfl⟩ := hs'.run htokens'
  rw [List.append_assoc, List.append_assoc]
  exact .inr (tokensAlike_of_apart hsame hend hapart)

/-- A round of scanners that are aligned where a token begins. -/
theorem addToken_ready {x x' : Char} {u u' : Scanner} (h : ScannersAligned p t t')
    (hbreak : t.cursor.peek?.any isBreak = false) (hx : t.cursor.peek? = some x)
    (hx' : t'.cursor.peek? = some x') (hu : t.addToken x = .ok u) (hu' : t'.addToken x' = .ok u') :
    Ready u u' ∨ Parted u u' := by
  unfold peek? at hbreak hx hx'
  cases h.paired.heads with
  | ends hrest =>
    rw [hrest] at hx
    cases hx
  | @char y rest rest' q hrest hrest' hy hpasses hpaired htogether =>
    rw [hrest] at hx
    rw [hrest'] at hx'
    obtain rfl := Option.some.inj hx
    obtain rfl := Option.some.inj hx'
    cases hspace : isSpace y with
    | true =>
      obtain ⟨error, herror⟩ := addToken_of_isSpace hrest hspace
      rw [herror] at hu
      cases hu
    | false =>
      refine (addToken_aligned h hrest hrest' hspace hpasses hpaired htogether u u' hu hu').imp_left
        fun hgo => ?_
      obtain ⟨q, hq⟩ := hgo
      exact .goOn (skipped_aligned hq)
  | «break» hat =>
    obtain ⟨y, rest, hrest, hy⟩ := hat.head
    rw [hrest] at hbreak
    cases hy.symm.trans hbreak
  | seam _ hseam =>
    obtain ⟨digit, rest, rest', hrest, hrest', hdigit⟩ := hseam.heads
    rw [hrest] at hx
    rw [hrest'] at hx'
    obtain rfl := Option.some.inj hx
    obtain rfl := Option.some.inj hx'
    rw [addToken_digit hrest hdigit] at hu
    rw [addToken_quote hrest'] at hu'
    exact addDecimal_aligned h hseam u u' hu hu'

theorem peek_cases (h : Paired p c c') :
    (c.peek? = none ∧ c'.peek? = none) ∨ ∃ x x', c.peek? = some x ∧ c'.peek? = some x' := by
  have hempty := h.isEmpty_eq
  unfold peek?
  cases hrest : c.rest with
  | nil =>
    rw [hrest] at hempty
    exact .inl ⟨rfl, by rw [List.isEmpty_iff.1 hempty.symm]; rfl⟩
  | cons x rest =>
    obtain ⟨x', rest', hrest'⟩ : ∃ x' rest', c'.rest = x' :: rest' := by
      refine List.exists_cons_of_ne_nil fun hnil => ?_
      rw [hrest, hnil] at hempty
      cases hempty
    exact .inr ⟨x, x', rfl, by rw [hrest']; rfl⟩

/-- Scanners at the ends of their texts only close the blocks. -/
theorem run_ended (h : TokensAligned s s') (hvalid : s.cursor.Valid) (hvalid' : s'.cursor.Valid)
    (hnil : s.cursor.rest = []) (hnil' : s'.cursor.rest = []) :
    Both TokensSameOrPart (s.run (fuel + 1)) (s'.run (fuel' + 1)) := by
  intro tokens tokens' hrun hrun'
  obtain ⟨t, column, hfinish, htokens, hcount, hindent, houter, hflow⟩ :=
    run_of_nil hvalid hnil hrun
  obtain ⟨t', column', hfinish', htokens', hcount', hindent', houter', hflow'⟩ :=
    run_of_nil hvalid' hnil' hrun'
  have haligned : TokensAligned t t' := by
    refine ⟨?_, ?_, ?_, ?_, ?_, ?_, ?_⟩
    · rw [htokens, htokens', h.tokens]
    · rw [hcount, hcount', h.count]
    · rw [hcount, htokens, h.counted]
    · rw [htokens]
      exact h.unended
    · rw [hindent, hindent', h.indent]
    · rw [houter, houter', h.outerIndents]
    · rw [hflow, hflow', h.inFlow]
  exact finish_closeBlocks_aligned haligned column column' tokens tokens' hfinish hfinish'

/-- A scanner does not go on where a tab stands and a key may begin. -/
theorem run_stuck (hvalid : s.cursor.Valid) (h : s.skipped.cursor.sees '\t' = true)
    {tokens : List Token} : s.run (fuel + 1) ≠ .ok tokens := by
  intro hrun
  rw [run_succ] at hrun
  obtain ⟨t, ht, hrun⟩ := exists_of_bind_eq_ok hrun
  rw [← cursor_of_settle hvalid ht, sees, decide_eq_true_eq] at h
  obtain ⟨rest, hrest⟩ := List.head?_eq_some_iff.1 h
  obtain ⟨error, herror⟩ := @addToken_of_isSpace t '\t' rest hrest (by decide)
  rw [h] at hrun
  obtain ⟨u, hu, -⟩ := exists_of_bind_eq_ok hrun
  rw [herror] at hu
  cases hu

/-- Scanners that are ready find the same tokens up to the style of decimals, or tokens that
part. -/
theorem run_aligned (h : Ready s s') (hvalid : s.cursor.Valid) (hvalid' : s'.cursor.Valid)
    (hf : s.cursor.rest.length < fuel) (hf' : s'.cursor.rest.length < fuel') :
    Both TokensSameOrPart (s.run fuel) (s'.run fuel') := by
  induction fuel generalizing s s' fuel' with
  | zero => omega
  | succ fuel ih =>
    obtain ⟨fuel', rfl⟩ : ∃ n, fuel' = n + 1 := ⟨fuel' - 1, by omega⟩
    cases h with
    | ended h hnil hnil' => exact run_ended h hvalid hvalid' hnil hnil'
    | stuck htab => exact fun _ _ _ hrun' => absurd hrun' (run_stuck hvalid' htab)
    | goOn h =>
      obtain ⟨p, h⟩ := h
      rw [run_succ, run_succ]
      intro tokens tokens' hrun hrun'
      obtain ⟨t, ht, hrun⟩ := exists_of_bind_eq_ok hrun
      obtain ⟨t', ht', hrun'⟩ := exists_of_bind_eq_ok hrun'
      have haligned := settle_aligned hvalid hvalid' h t t' ht ht'
      rcases peek_cases haligned.paired with ⟨hnone, hnone'⟩ | ⟨x, x', hx, hx'⟩
      · rw [hnone] at hrun
        rw [hnone'] at hrun'
        exact finish_aligned haligned.toTokensAligned tokens tokens' hrun hrun'
      rw [hx] at hrun
      rw [hx'] at hrun'
      obtain ⟨u, hu, hrun⟩ := exists_of_bind_eq_ok hrun
      obtain ⟨u', hu', hrun'⟩ := exists_of_bind_eq_ok hrun'
      -- A round passes a character on either side, so the rounds left still suffice.
      obtain ⟨hpass, hbreak⟩ := pass_of_settle hvalid ht hx hu
      obtain ⟨hpass', -⟩ := pass_of_settle hvalid' ht' hx' hu'
      rcases addToken_ready haligned hbreak hx hx' hu hu' with hready | hparted
      · refine ih hready (hpass.1.valid hvalid) (hpass'.1.valid hvalid') ?_ ?_ tokens tokens' hrun
          hrun'
        · exact Nat.lt_of_lt_of_le hpass.2 (Nat.le_of_lt_succ hf)
        · exact Nat.lt_of_lt_of_le hpass'.2 (Nat.le_of_lt_succ hf')
      · exact hparted.run_aligned tokens tokens' hrun hrun'

end

end Scanner

/-- The tokens of aligned texts are the same up to the style of decimals, or part at a scalar. -/
theorem scan_aligned {cs ds : List Char} (h : Aligned .line cs ds) :
    Both TokensSameOrPart (scan cs) (scan ds) := by
  have hstart : Scanner.ScannersAligned .line (Scanner.start cs) (Scanner.start ds) :=
    ⟨⟨rfl, rfl, rfl, List.not_mem_nil, rfl, rfl, rfl⟩,
      ⟨h, rfl, valid_start cs, valid_start ds⟩, rfl, .none, .nil⟩
  unfold scan
  split
  · split
    · exact Scanner.run_aligned (.goOn (Scanner.skipped_aligned hstart)) (valid_start cs)
        (valid_start ds) (Nat.lt_succ_self _) (Nat.lt_succ_self _)
    · exact .error_right _ _
  · exact .error_left _ _

end RamlDoc.Yaml
