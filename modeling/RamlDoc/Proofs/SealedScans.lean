import RamlDoc.Proofs.BlocksAligned
import RamlDoc.Proofs.MarksAligned
import RamlDoc.Proofs.QuotedAligned

/-!
# Tokens that stay

The tokens that a scanner has found may still get a key in front of them, as long as a colon can
follow on the line. Once that is excluded for the first tokens, they are the first tokens of the
whole text (`Sealed.run`). The lemmas here are about one scanner; a reading function is known to
advance because two of its runs on the same text do.
-/

namespace RamlDoc.Yaml

open Cursor

/-- A text is aligned with itself. -/
theorem aligned_self (cs : List Char) : Aligned .text cs cs := by
  induction hn : cs.length using Nat.strongRecOn generalizing cs with
  | ind n ih =>
    cases cs with
    | nil => exact .nil
    | cons x rest =>
      have hrest := ih rest.length (by rw [← hn]; exact Nat.lt_succ_self _) rest rfl
      by_cases hfeed : x = '\n'
      · subst hfeed
        exact .feed (.unquoted hrest)
      by_cases hreturn : x = '\r' ∧ rest.head? = some '\n'
      · obtain ⟨rfl, hhead⟩ := hreturn
        obtain ⟨tail, rfl⟩ := List.head?_eq_some_iff.1 hhead
        have htail := ih tail.length (by rw [← hn]; exact Nat.lt_succ_of_lt (Nat.lt_succ_self _))
          tail rfl
        exact .kept (.unquoted htail)
      · exact .char hfeed (fun heq hhead => hreturn ⟨heq, hhead⟩) hrest

theorem paired_self {c : Cursor} (h : c.Valid) : Paired .text c c := ⟨aligned_self _, rfl, h, h⟩

namespace Scanner

/-- The first tokens that a scanner has found do not change any more: a key that could be put in
between them is out of reach of a colon. -/
structure Sealed (front : List Token) (s : Scanner) : Prop where
  found : front <+: s.tokens.reverse
  count : s.count = s.tokens.length
  valid : s.cursor.Valid
  keys : ∀ key : PossibleKey, some key ∈ s.possibleKey :: s.outerKeys →
    front.length ≤ key.position ∨ key.line < s.cursor.line ∨
      key.line = s.cursor.line ∧ s.cursor.ColonFree

section

variable {front : List Token} {s t : Scanner} {c : Cursor} {token : Token} {position : Nat}

theorem Sealed.length_le (h : Sealed front s) : front.length ≤ s.count := by
  have := h.found.length_le
  rwa [List.length_reverse, ← h.count] at this

theorem Sealed.goto (h : Sealed front s) (hc : s.cursor.Advances c) : Sealed front (s.goto c) := by
  refine ⟨h.found, h.count, hc.valid h.valid, fun key hkey => ?_⟩
  rcases h.keys key hkey with hposition | hline | ⟨hline, hfree⟩
  · exact .inl hposition
  · exact .inr (.inl (Nat.lt_of_lt_of_le hline hc.line_le))
  · rcases (hfree.sealed hc).free with hlater | hfree
    · exact .inr (.inl (hline ▸ hlater))
    · rcases Nat.lt_or_eq_of_le hc.line_le with hlater | hsame
      · exact .inr (.inl (hline ▸ hlater))
      · exact .inr (.inr ⟨hline.trans hsame, hfree⟩)

theorem Sealed.push (h : Sealed front s) (token : Token) : Sealed front (s.push token) := by
  refine ⟨?_, congrArg (· + 1) h.count, h.valid, h.keys⟩
  change front <+: (token :: s.tokens).reverse
  rw [List.reverse_cons]
  exact h.found.trans (List.prefix_append _ _)

theorem Sealed.insert (h : Sealed front s) (hposition : front.length ≤ position) (token : Token) :
    Sealed front (s.insert position token) := by
  have hlength := h.length_le
  have hcount := h.count
  refine ⟨?_, ?_, h.valid, h.keys⟩
  · change front <+: (s.tokens.take (s.count - position) ++
      token :: s.tokens.drop (s.count - position)).reverse
    rw [List.reverse_append, List.reverse_cons, List.append_assoc]
    refine List.IsPrefix.trans ?_ (List.prefix_append _ _)
    refine List.prefix_of_prefix_length_le h.found ?_ ?_
    · rw [List.reverse_drop]
      exact List.take_prefix _ _
    · rw [List.length_reverse, List.length_drop]
      omega
  · change s.count + 1 = (s.tokens.take (s.count - position) ++
      token :: s.tokens.drop (s.count - position)).length
    rw [List.length_append, List.length_cons, List.length_take, List.length_drop]
    omega

theorem Sealed.openBlock (h : Sealed front s) (hposition : front.length ≤ position) (column : Nat)
    (token : Token) : Sealed front (s.openBlock column token position) := by
  unfold Scanner.openBlock
  split
  · exact h
  · have hinsert := h.insert hposition token
    exact ⟨hinsert.found, hinsert.count, hinsert.valid, hinsert.keys⟩

theorem Sealed.closeBlocksFrom (h : Sealed front s) (column : Int) (outer : List Int) :
    Sealed front (Scanner.closeBlocksFrom column outer s) := by
  induction outer generalizing s with
  | nil => exact h
  | cons indent outer ih =>
    rw [Scanner.closeBlocksFrom]
    split
    · have hpush := h.push .blockEnd
      exact ih ⟨hpush.found, hpush.count, hpush.valid, hpush.keys⟩
    · exact h

theorem Sealed.closeBlocks (h : Sealed front s) (column : Int) :
    Sealed front (s.closeBlocks column) := by
  unfold Scanner.closeBlocks
  split
  · exact h
  · exact h.closeBlocksFrom column _

/-- The possible keys of a scanner may be given up. -/
theorem Sealed.of_keys (h : Sealed front s) {possibleKey : Option PossibleKey}
    {outerKeys : List (Option PossibleKey)} {keyAllowed : Bool}
    (hkeys : ∀ key : PossibleKey, some key ∈ possibleKey :: outerKeys →
      some key ∈ s.possibleKey :: s.outerKeys) :
    Sealed front { s with possibleKey, outerKeys, keyAllowed } :=
  ⟨h.found, h.count, h.valid, fun key hkey => h.keys key (hkeys key hkey)⟩

end

/-- A scanner comes from another at the same place, by tokens that are put in behind those that do
not change. -/
structure Quiet (s t : Scanner) : Prop where
  cursor : t.cursor = s.cursor
  sealed {front : List Token} (h : Sealed front s) : Sealed front t

/-- A scanner comes from another by passing characters, with tokens that are put in behind those
that do not change. -/
structure Steps (s t : Scanner) : Prop where
  advances : s.cursor.Advances t.cursor
  shorter : t.cursor.rest.length < s.cursor.rest.length
  sealed {front : List Token} (h : Sealed front s) : Sealed front t

section

variable {front : List Token} {s t u : Scanner} {c d : Cursor} {token : Token} {x : Char}
  {rest : List Char}

theorem Quiet.refl (s : Scanner) : Quiet s s := ⟨rfl, id⟩

theorem Quiet.trans (h : Quiet s t) (h' : Quiet t u) : Quiet s u :=
  ⟨h'.cursor.trans h.cursor, fun hs => h'.sealed (h.sealed hs)⟩

theorem quiet_dropKey (h : s.dropKey = .ok t) : Quiet s t := by
  unfold Scanner.dropKey at h
  split at h
  · cases h
  · obtain rfl := Except.ok.inj h
    refine ⟨rfl, fun hs => hs.of_keys fun key hkey => ?_⟩
    rcases List.mem_cons.1 hkey with hkey | hkey
    · cases hkey
    · exact List.mem_cons_of_mem _ hkey

theorem quiet_noteKey (h : s.noteKey = .ok t) : Quiet s t := by
  unfold Scanner.noteKey at h
  split at h
  · obtain ⟨u, hu, h⟩ := exists_of_bind_eq_ok h
    obtain rfl := Except.ok.inj h
    have hdrop := quiet_dropKey hu
    refine ⟨hdrop.cursor, fun hs => ?_⟩
    obtain ⟨hfound, hcount, hvalid, hkeys⟩ := hdrop.sealed hs
    refine ⟨hfound, hcount, hvalid, fun key hkey => ?_⟩
    rcases List.mem_cons.1 hkey with hkey | hkey
    · obtain rfl := Option.some.inj hkey
      exact .inl (hdrop.sealed hs).length_le
    · exact hkeys key (List.mem_cons_of_mem _ hkey)
  · obtain rfl := Except.ok.inj h
    exact .refl s

/-- Closing blocks changes the tokens and the indentation. -/
theorem closeBlocksFrom_frame (column : Int) (outer : List Int) (s : Scanner) :
    ∃ tokens count indent outerIndents,
      closeBlocksFrom column outer s = { s with tokens, count, indent, outerIndents } := by
  induction outer generalizing s with
  | nil => exact ⟨_, _, _, _, rfl⟩
  | cons indent outer ih =>
    rw [closeBlocksFrom]
    split
    · obtain ⟨_, _, _, _, heq⟩ := ih { s.push .blockEnd with indent, outerIndents := outer }
      exact ⟨_, _, _, _, heq⟩
    · exact ⟨_, _, _, _, rfl⟩

theorem closeBlocks_frame (s : Scanner) (column : Int) :
    ∃ tokens count indent outerIndents,
      s.closeBlocks column = { s with tokens, count, indent, outerIndents } := by
  unfold closeBlocks
  split
  · exact ⟨_, _, _, _, rfl⟩
  · exact closeBlocksFrom_frame column _ s

theorem quiet_closeBlocks (s : Scanner) (column : Int) : Quiet s (s.closeBlocks column) := by
  refine ⟨?_, fun hs => hs.closeBlocks column⟩
  obtain ⟨_, _, _, _, heq⟩ := closeBlocks_frame s column
  rw [heq]

theorem quiet_leaveBlocks (h : s.leaveBlocks = .ok t) : Quiet s t := by
  obtain ⟨u, hu, h⟩ := exists_of_bind_eq_ok h
  obtain rfl := Except.ok.inj h
  have hdrop := (quiet_closeBlocks s (-1)).trans (quiet_dropKey hu)
  exact ⟨hdrop.cursor, fun hs => (hdrop.sealed hs).of_keys fun _ => id⟩

theorem quiet_openBlock (s : Scanner) (column : Nat) (token : Token) :
    Quiet s (s.openBlock column token s.count) := by
  refine ⟨?_, fun hs => hs.openBlock hs.length_le column token⟩
  unfold openBlock
  split <;> rfl

/-- Adding a token and passing it. -/
theorem Quiet.steps (h : Quiet s t) (hd : s.cursor.Advances d)
    (hshorter : d.rest.length < s.cursor.rest.length) {possibleKey : Option PossibleKey}
    {outerKeys : List (Option PossibleKey)} {keyAllowed : Bool}
    (hkeys : ∀ key : PossibleKey, some key ∈ possibleKey :: outerKeys →
      some key ∈ t.possibleKey :: t.outerKeys) :
    Steps s { (t.push token).goto d with possibleKey, outerKeys, keyAllowed } := by
  refine ⟨hd, hshorter, fun hs => ?_⟩
  have hgoto := ((h.sealed hs).push token).goto (c := d) (by rw [push, h.cursor]; exact hd)
  exact hgoto.of_keys hkeys

/-- Adding a token that begins with the next character. -/
theorem Quiet.steps_of_skip (h : Quiet s t) (hrest : s.cursor.rest = x :: rest)
    (hx : isBreak x = false) (hd : (s.cursor.skip 1).Advances d)
    {possibleKey : Option PossibleKey} {outerKeys : List (Option PossibleKey)} {keyAllowed : Bool}
    (hkeys : ∀ key : PossibleKey, some key ∈ possibleKey :: outerKeys →
      some key ∈ t.possibleKey :: t.outerKeys) :
    Steps s { (t.push token).goto d with possibleKey, outerKeys, keyAllowed } := by
  refine h.steps ((advances_skip_one hrest hx).trans hd) ?_ hkeys
  exact Nat.lt_of_le_of_lt hd.length_le (length_skip_lt hrest Nat.one_pos)

theorem steps_openFlow (hrest : s.cursor.rest = x :: rest) (hx : isBreak x = false)
    (h : s.openFlow token = .ok u) : Steps s u := by
  obtain ⟨t, ht, h⟩ := exists_of_bind_eq_ok h
  obtain rfl := Except.ok.inj h
  have hquiet := quiet_noteKey ht
  refine hquiet.steps_of_skip hrest hx (by rw [hquiet.cursor]; exact .refl _) fun key hkey => ?_
  rcases List.mem_cons.1 hkey with hkey | hkey
  · cases hkey
  · exact hkey

theorem steps_closeFlow (hrest : s.cursor.rest = x :: rest) (hx : isBreak x = false)
    (h : s.closeFlow token = .ok u) : Steps s u := by
  obtain ⟨t, ht, h⟩ := exists_of_bind_eq_ok h
  have hquiet := quiet_dropKey ht
  obtain rfl := Except.ok.inj h
  cases houter : t.outerKeys with
  | nil =>
    refine hquiet.steps_of_skip hrest hx (by rw [hquiet.cursor]; exact .refl _) fun key hkey => ?_
    exact houter ▸ hkey
  | cons key outerKeys =>
    refine hquiet.steps_of_skip hrest hx (by rw [hquiet.cursor]; exact .refl _) fun key hkey => ?_
    rw [houter]
    exact List.mem_cons_of_mem _ hkey

theorem steps_addFlowEntry (hrest : s.cursor.rest = x :: rest) (hx : isBreak x = false)
    (h : s.addFlowEntry = .ok u) : Steps s u := by
  obtain ⟨t, ht, h⟩ := exists_of_bind_eq_ok h
  obtain rfl := Except.ok.inj h
  have hquiet := quiet_dropKey ht
  exact hquiet.steps_of_skip hrest hx (by rw [hquiet.cursor]; exact .refl _) fun _ => id

theorem steps_addBlockEntry (hrest : s.cursor.rest = x :: rest) (hx : isBreak x = false)
    (h : s.addBlockEntry = .ok u) : Steps s u := by
  unfold addBlockEntry at h
  split at h
  · cases h
  obtain ⟨t, ht, h⟩ := exists_of_bind_eq_ok h
  obtain rfl := Except.ok.inj h
  have hquiet := (quiet_openBlock s _ _).trans (quiet_dropKey ht)
  exact hquiet.steps_of_skip hrest hx (by rw [hquiet.cursor]; exact .refl _) fun _ => id

theorem steps_addKey (hrest : s.cursor.rest = x :: rest) (hx : isBreak x = false)
    (h : s.addKey = .ok u) : Steps s u := by
  unfold addKey at h
  split at h
  · cases h
  obtain ⟨t, ht, h⟩ := exists_of_bind_eq_ok h
  obtain rfl := Except.ok.inj h
  have hquiet := (quiet_openBlock s _ _).trans (quiet_dropKey ht)
  exact hquiet.steps_of_skip hrest hx (by rw [hquiet.cursor]; exact .refl _) fun _ => id

theorem steps_addAnchor {name : String → Token} (hvalid : s.cursor.Valid)
    (hrest : s.cursor.rest = x :: rest) (hx : isBreak x = false)
    (h : s.addAnchor name = .ok u) : Steps s u := by
  obtain ⟨t, ht, h⟩ := exists_of_bind_eq_ok h
  obtain ⟨anchor, hanchor, h⟩ := exists_of_bind_eq_ok h
  obtain rfl := Except.ok.inj h
  have hquiet := quiet_noteKey ht
  rw [hquiet.cursor] at hanchor
  have hskip := advances_skip_one hrest hx
  have hread := readAnchor_aligned (paired_self (hskip.valid hvalid)) rfl _ _ hanchor hanchor
  exact hquiet.steps_of_skip hrest hx hread.together.left fun _ => id

theorem steps_addTag (hvalid : s.cursor.Valid) (hrest : s.cursor.rest = '!' :: rest)
    (h : s.addTag = .ok u) : Steps s u := by
  obtain ⟨t, ht, h⟩ := exists_of_bind_eq_ok h
  obtain ⟨tag, htag, h⟩ := exists_of_bind_eq_ok h
  obtain rfl := Except.ok.inj h
  have hquiet := quiet_noteKey ht
  rw [hquiet.cursor] at htag
  have hsees : s.cursor.sees '!' = true := by rw [sees, peek?, hrest]; rfl
  have hread := readTag_aligned (paired_self hvalid) rfl hsees _ _ htag htag
  refine hquiet.steps hread.together.left ?_ fun _ => id
  refine hread.together.left.length_lt_of_ne fun heq => ?_
  rw [readTag_eq] at htag
  obtain ⟨parts, -, htag⟩ := exists_of_bind_eq_ok htag
  unfold closeTag at htag
  split at htag
  · cases htag
  next hend =>
    obtain rfl := Except.ok.inj htag
    have hnext : parts.2.2.rest = '!' :: rest := heq.trans hrest
    refine hend ?_
    rw [sees, blankAt_zero, peek?, hnext]
    cases t.inFlow <;> rfl

theorem steps_addBlockScalar {literal : Bool} (hvalid : s.cursor.Valid)
    (hrest : s.cursor.rest = x :: rest) (hx : isBreak x = false)
    (h : s.addBlockScalar literal = .ok u) : Steps s u := by
  obtain ⟨t, ht, h⟩ := exists_of_bind_eq_ok h
  obtain ⟨scalar, hscalar, h⟩ := exists_of_bind_eq_ok h
  obtain rfl := Except.ok.inj h
  have hquiet := quiet_dropKey ht
  rw [hquiet.cursor] at hscalar
  have hskip := advances_skip_one hrest hx
  rcases Block.read_aligned (paired_self (hskip.valid hvalid)) rfl _ _ hscalar hscalar with
    hread | hread
  · exact hquiet.steps_of_skip hrest hx hread.together.left fun _ => id
  · exact absurd rfl hread.apart.1

theorem steps_addQuotedScalar {single : Bool} (hrest : s.cursor.rest = x :: rest)
    (hx : isBreak x = false) (h : s.addQuotedScalar single = .ok u) : Steps s u := by
  obtain ⟨t, ht, h⟩ := exists_of_bind_eq_ok h
  obtain ⟨scalar, hscalar, h⟩ := exists_of_bind_eq_ok h
  obtain rfl := Except.ok.inj h
  have hquiet := quiet_noteKey ht
  rw [hquiet.cursor] at hscalar
  exact hquiet.steps_of_skip hrest hx (Quoted.readFrom_spec hscalar).2 fun _ => id

theorem dropKey_outerKeys (h : s.dropKey = .ok t) : t.outerKeys = s.outerKeys := by
  unfold Scanner.dropKey at h
  split at h
  · cases h
  · obtain rfl := Except.ok.inj h
    rfl

theorem noteKey_inFlow (h : s.noteKey = .ok t) : t.inFlow = s.inFlow := by
  unfold Scanner.noteKey at h
  split at h
  · obtain ⟨u, hu, h⟩ := exists_of_bind_eq_ok h
    obtain rfl := Except.ok.inj h
    unfold inFlow
    rw [← dropKey_outerKeys hu]
  · obtain rfl := Except.ok.inj h
    rfl

theorem steps_addPlainScalar (hrest : s.cursor.rest = x :: rest)
    (hstart : (s.cursor.atBoundary '-' || s.cursor.atBoundary '.' || s.cursor.sees '#') = false)
    (hlength : Plain.runLength s.inFlow s.cursor.rest ≠ .ok 0)
    (h : s.addPlainScalar = .ok u) : Steps s u := by
  obtain ⟨t, ht, h⟩ := exists_of_bind_eq_ok h
  obtain ⟨scalar, hscalar, h⟩ := exists_of_bind_eq_ok h
  obtain rfl := Except.ok.inj h
  have hquiet := quiet_noteKey ht
  rw [hquiet.cursor] at hscalar
  refine hquiet.steps (Plain.readFrom_spec hscalar).2 ?_ fun _ => id
  change Plain.readFrom _ _ (_ + 1) _ _ _ = _ at hscalar
  rw [Plain.readFrom_succ, hstart, noteKey_inFlow ht] at hscalar
  obtain ⟨count, hcount, hscalar⟩ := exists_of_bind_eq_ok hscalar
  split at hscalar
  next hzero =>
    rw [hzero] at hcount
    exact absurd hcount hlength
  next hpos =>
    have hafter := (Plain.afterRun_spec hscalar).2.length_le
    exact Nat.lt_of_le_of_lt hafter (length_skip_lt hrest (Nat.pos_of_ne_zero hpos))

theorem steps_addDirective (hvalid : s.cursor.Valid) (hrest : s.cursor.rest = x :: rest)
    (hx : isBreak x = false)
    (h : (do
      let t ← s.leaveBlocks
      let (token, c) ← readDirective t.cursor
      return (t.push token).goto c) = .ok u) : Steps s u := by
  obtain ⟨t, ht, h⟩ := exists_of_bind_eq_ok h
  obtain ⟨directive, hdirective, h⟩ := exists_of_bind_eq_ok h
  obtain rfl := Except.ok.inj h
  have hquiet := quiet_leaveBlocks ht
  rw [hquiet.cursor] at hdirective
  have hskip := advances_skip_one hrest hx
  have hread := readDirective_aligned (paired_self (hskip.valid hvalid)) rfl _ _ hdirective
    hdirective
  exact hquiet.steps_of_skip hrest hx hread.together.left fun _ => id

theorem steps_addBoundary {mark : Char} (hmark : isBreak mark = false)
    (hboundary : s.cursor.atBoundary mark = true)
    (h : (return (← s.leaveBlocks).pushMark token 3 : Except ReadError Scanner) = .ok u) :
    Steps s u := by
  obtain ⟨t, ht, h⟩ := exists_of_bind_eq_ok h
  obtain rfl := Except.ok.inj h
  have hquiet := quiet_leaveBlocks ht
  have htake : s.cursor.rest.take 3 = [mark, mark, mark] := by
    unfold atBoundary at hboundary
    simp only [Bool.and_eq_true, decide_eq_true_eq] at hboundary
    exact hboundary.1.2
  refine hquiet.steps (d := t.cursor.skip 3) ?_ ?_ fun _ => id
  · rw [hquiet.cursor]
    refine advances_skip fun x hx => ?_
    rw [htake] at hx
    simp only [List.mem_cons, List.not_mem_nil, or_false, or_self] at hx
    rw [hx, hmark]
  · rw [hquiet.cursor]
    cases hrest : s.cursor.rest with
    | nil => rw [hrest] at htake; cases htake
    | cons x rest => exact hrest ▸ length_skip_lt hrest (by decide)

theorem openBlock_cursor (s : Scanner) (column : Nat) (token : Token) (position : Nat) :
    (s.openBlock column token position).cursor = s.cursor := by
  unfold openBlock
  split <;> rfl

/-- What an unquoted scalar begins with. -/
theorem startsPlain_spec (hrest : s.cursor.rest = x :: rest) (h : s.startsPlain = true) :
    x ≠ '#' ∧ Plain.runLength s.inFlow s.cursor.rest ≠ .ok 0 := by
  have hblank : s.cursor.blankAt 1 = rest.head?.all fun y => isSpace y || isBreak y := by
    rw [blankAt_succ, blankAt_zero, peek?, skip_rest hrest]
  have hinner : x ≠ '#' ∧ (isSpace x || isBreak x) = false ∧
      (x = ':' && rest.head?.all fun y => isSpace y || isBreak y) = false ∧
        (s.inFlow && Plain.isFlowIndicator x) = false := by
    unfold startsPlain peek? at h
    dsimp only at h
    rw [hrest] at h
    rcases cases_of_ite h with ⟨rfl, -⟩ | ⟨-, h⟩
    · refine ⟨by decide, by decide, by simp, ?_⟩
      cases s.inFlow <;> decide
    rcases cases_of_ite h with ⟨hx, h⟩ | ⟨hx, h⟩
    · rw [Bool.and_eq_true, Bool.not_eq_true', Bool.not_eq_true', hblank] at h
      obtain ⟨hflow, hnext⟩ := h
      rw [hflow, hnext, Bool.and_false]
      rw [Bool.or_eq_true, decide_eq_true_eq, decide_eq_true_eq] at hx
      rcases hx with rfl | rfl
      · exact ⟨by decide, by decide, rfl, rfl⟩
      · exact ⟨by decide, by decide, rfl, rfl⟩
    · rw [Bool.and_eq_true, Bool.not_eq_true', decide_eq_true_eq] at h
      obtain ⟨hspace, hmem⟩ := h
      simp only [List.mem_cons, not_or] at hmem
      rw [Bool.or_eq_true, not_or, decide_eq_true_eq, decide_eq_true_eq] at hx
      refine ⟨hmem.2.2.2.2.2.1, hspace, by rw [decide_eq_false hx.2]; rfl, ?_⟩
      have hindicator : Plain.isFlowIndicator x = false := by
        simp [Plain.isFlowIndicator, hmem]
      rw [hindicator, Bool.and_false]
  obtain ⟨hsign, hspace, hcolon, hindicator⟩ := hinner
  refine ⟨hsign, fun hzero => ?_⟩
  rw [hrest, Plain.runLength, hspace, hcolon, hindicator] at hzero
  rcases cases_of_ite hzero with ⟨hfalse, -⟩ | ⟨-, hzero⟩
  · cases hfalse
  rcases cases_of_ite hzero with ⟨-, hzero⟩ | ⟨-, hzero⟩
  · cases hzero
  cases hrun : Plain.runLength s.inFlow rest with
  | error => rw [hrun] at hzero; cases hzero
  | ok count => rw [hrun] at hzero; cases hzero

theorem addValue_cursor (h : s.addValue = .ok u) : u.cursor = s.cursor.skip 1 := by
  unfold addValue at h
  split at h
  next key hpossible =>
    obtain rfl := Except.ok.inj h
    exact congrArg (Cursor.skip · 1) (openBlock_cursor (s.insert key.position .key) key.column _ _)
  next =>
    split at h
    · cases h
    · obtain rfl := Except.ok.inj h
      exact congrArg (Cursor.skip · 1) (openBlock_cursor s _ _ _)

/-- A key is put in behind the tokens that do not change. -/
theorem sealed_addValue (hs : Sealed front s) (hrest : s.cursor.rest = x :: rest)
    (hx : isBreak x = false)
    (hkey : ∀ key : PossibleKey, s.possibleKey = some key → front.length ≤ key.position)
    (h : s.addValue = .ok u) : Sealed front u := by
  have hskip := advances_skip_one hrest hx
  have hadd : ∀ {t : Scanner} {possibleKey : Option PossibleKey} {keyAllowed : Bool},
      Sealed front t → t.cursor = s.cursor →
        (∀ key, possibleKey = some key → t.possibleKey = some key) →
          Sealed front { t.pushMark .value 1 with possibleKey, keyAllowed } := by
    intro t possibleKey keyAllowed ht hcursor hpossible
    have hgoto := (ht.push .value).goto (c := t.cursor.skip 1) (by rw [push, hcursor]; exact hskip)
    refine hgoto.of_keys fun key hkey => ?_
    rcases List.mem_cons.1 hkey with hkey | hkey
    · exact List.mem_cons.2 (.inl (hpossible key hkey.symm).symm)
    · exact List.mem_cons_of_mem _ hkey
  unfold addValue at h
  split at h
  next key hpossible =>
    obtain rfl := Except.ok.inj h
    have hposition := hkey key hpossible
    exact hadd ((hs.insert hposition .key).openBlock hposition key.column .blockMappingStart)
      (openBlock_cursor _ _ _ _) nofun
  next hnone =>
    split at h
    · cases h
    · obtain rfl := Except.ok.inj h
      exact hadd (hs.openBlock hs.length_le _ _) (openBlock_cursor _ _ _ _) fun _ => id

/-- A token begins with the next character; behind a key it is put in where the key began. -/
theorem addToken_spec (hvalid : s.cursor.Valid) (hrest : s.cursor.rest = x :: rest)
    (hx : isBreak x = false) (h : s.addToken x = .ok u) :
    s.cursor.Advances u.cursor ∧ u.cursor.rest.length < s.cursor.rest.length ∧
      ∀ {front : List Token}, Sealed front s →
        (x = ':' → ∀ key : PossibleKey, s.possibleKey = some key → front.length ≤ key.position) →
          Sealed front u := by
  have hsteps : Steps s u → s.cursor.Advances u.cursor ∧
      u.cursor.rest.length < s.cursor.rest.length ∧ ∀ {front : List Token}, Sealed front s →
        (x = ':' → ∀ key : PossibleKey, s.possibleKey = some key → front.length ≤ key.position) →
          Sealed front u := fun h => ⟨h.advances, h.shorter, fun hs _ => h.sealed hs⟩
  unfold addToken at h
  rcases cases_of_ite h with ⟨-, h⟩ | ⟨-, h⟩
  · exact hsteps (steps_addDirective hvalid hrest hx h)
  rcases cases_of_ite h with ⟨hboundary, h⟩ | ⟨hdash, h⟩
  · exact hsteps (steps_addBoundary (by decide) hboundary h)
  rcases cases_of_ite h with ⟨hboundary, h⟩ | ⟨hpoint, h⟩
  · exact hsteps (steps_addBoundary (by decide) hboundary h)
  rcases cases_of_ite h with ⟨-, h⟩ | ⟨-, h⟩
  · exact hsteps (steps_openFlow hrest hx h)
  rcases cases_of_ite h with ⟨-, h⟩ | ⟨-, h⟩
  · exact hsteps (steps_openFlow hrest hx h)
  rcases cases_of_ite h with ⟨-, h⟩ | ⟨-, h⟩
  · exact hsteps (steps_closeFlow hrest hx h)
  rcases cases_of_ite h with ⟨-, h⟩ | ⟨-, h⟩
  · exact hsteps (steps_closeFlow hrest hx h)
  rcases cases_of_ite h with ⟨-, h⟩ | ⟨-, h⟩
  · exact hsteps (steps_addFlowEntry hrest hx h)
  rcases cases_of_ite h with ⟨-, h⟩ | ⟨-, h⟩
  · exact hsteps (steps_addBlockEntry hrest hx h)
  rcases cases_of_ite h with ⟨-, h⟩ | ⟨-, h⟩
  · exact hsteps (steps_addKey hrest hx h)
  rcases cases_of_ite h with ⟨hcolon, h⟩ | ⟨hcolon, h⟩
  · have hskip := advances_skip_one hrest hx
    have hcursor := addValue_cursor h
    rw [Bool.and_eq_true, decide_eq_true_eq] at hcolon
    refine ⟨hcursor ▸ hskip, hcursor ▸ length_skip_lt hrest Nat.one_pos, fun hs hkey => ?_⟩
    exact sealed_addValue hs hrest hx (hkey hcolon.1) h
  rcases cases_of_ite h with ⟨-, h⟩ | ⟨-, h⟩
  · exact hsteps (steps_addAnchor hvalid hrest hx h)
  rcases cases_of_ite h with ⟨-, h⟩ | ⟨-, h⟩
  · exact hsteps (steps_addAnchor hvalid hrest hx h)
  rcases cases_of_ite h with ⟨htag, h⟩ | ⟨-, h⟩
  · exact hsteps (steps_addTag hvalid (htag ▸ hrest) h)
  rcases cases_of_ite h with ⟨-, h⟩ | ⟨-, h⟩
  · exact hsteps (steps_addBlockScalar hvalid hrest hx h)
  rcases cases_of_ite h with ⟨-, h⟩ | ⟨-, h⟩
  · exact hsteps (steps_addBlockScalar hvalid hrest hx h)
  rcases cases_of_ite h with ⟨-, h⟩ | ⟨-, h⟩
  · exact hsteps (steps_addQuotedScalar hrest hx h)
  rcases cases_of_ite h with ⟨-, h⟩ | ⟨-, h⟩
  · exact hsteps (steps_addQuotedScalar hrest hx h)
  rcases cases_of_ite h with ⟨hstart, h⟩ | ⟨-, h⟩
  · obtain ⟨hsign, hlength⟩ := startsPlain_spec hrest hstart
    refine hsteps (steps_addPlainScalar hrest ?_ hlength h)
    rw [Bool.not_eq_true] at hdash hpoint
    rw [hdash, hpoint, sees, peek?, hrest]
    exact decide_eq_false fun heq => hsign (Option.some.inj heq)
  · cases h

/-! ## Between the tokens -/

/-- The cursor behind a byte-order mark, blanks and a comment. -/
def passBlanks (tabs : Bool) (c : Cursor) : Cursor :=
  ((if c.column = 0 && c.sees '\ufeff' then c.skip 1 else c).skipWhile
    fun x => x = ' ' || (tabs && x = '\t')).skipComment

theorem skipToToken_succ (fuel : Nat) (s : Scanner) : s.skipToToken (fuel + 1) =
    if (passBlanks (s.inFlow || !s.keyAllowed) s.cursor).peek?.any isBreak then
      skipToToken fuel
        { s with
          cursor := (passBlanks (s.inFlow || !s.keyAllowed) s.cursor).skipBreak
          keyAllowed := s.keyAllowed || !s.inFlow }
    else s.goto (passBlanks (s.inFlow || !s.keyAllowed) s.cursor) := rfl

theorem isBlank_of_isBreak (tabs : Bool) (x : Char) (h : isBreak x = true) :
    (x = ' ' || (tabs && x = '\t')) = false :=
  @eq_false_of_isBreak (fun y => y = ' ' || (tabs && y = '\t')) (by cases tabs <;> decide) x h

theorem advances_passBlanks (tabs : Bool) (c : Cursor) : c.Advances (passBlanks tabs c) := by
  have hmark : c.Advances (if c.column = 0 && c.sees '\ufeff' then c.skip 1 else c) := by
    split
    next hsees =>
      rw [Bool.and_eq_true] at hsees
      obtain ⟨rest, hrest⟩ := List.head?_eq_some_iff.1 (of_decide_eq_true hsees.2)
      exact advances_skip_one hrest (by decide)
    next => exact .refl c
  exact (hmark.trans (advances_skipWhile (isBlank_of_isBreak tabs))).trans (advances_skipComment _)

/-- Passing what stands between tokens moves the cursor. -/
theorem skipToToken_spec (fuel : Nat) (s : Scanner) :
    ∃ c keyAllowed, s.skipToToken fuel = { s with cursor := c, keyAllowed } ∧
      s.cursor.Advances c ∧ (s.cursor.rest.length < fuel → c.peek?.any isBreak = false) := by
  induction fuel generalizing s with
  | zero => exact ⟨s.cursor, s.keyAllowed, rfl, .refl _, nofun⟩
  | succ fuel ih =>
    have hblanks := advances_passBlanks (s.inFlow || !s.keyAllowed) s.cursor
    rw [skipToToken_succ]
    split
    next hbreak =>
      obtain ⟨c, keyAllowed, heq, hadvances, hend⟩ := ih { s with
        cursor := (passBlanks (s.inFlow || !s.keyAllowed) s.cursor).skipBreak
        keyAllowed := s.keyAllowed || !s.inFlow }
      refine ⟨c, keyAllowed, heq, (hblanks.trans (advances_readBreak _)).trans hadvances, ?_⟩
      intro hfuel
      have hlength := hblanks.length_le
      have hshorter := length_readBreak_lt hbreak
      exact hend (Nat.lt_of_lt_of_le hshorter (by omega))
    next hend =>
      exact ⟨_, s.keyAllowed, rfl, hblanks, fun _ => Bool.eq_false_iff.2 hend⟩

theorem freshKey_spec {key? fresh? : Option PossibleKey} (h : freshKey c key? = .ok fresh?)
    {key : PossibleKey} (hkey : fresh? = some key) : key? = some key ∧ c.line ≤ key.line := by
  unfold freshKey at h
  split at h
  · obtain rfl := Except.ok.inj h
    cases hkey
  · rcases cases_of_ite h with ⟨-, h⟩ | ⟨hfresh, h⟩
    · rcases cases_of_ite h with ⟨-, h⟩ | ⟨-, h⟩
      · cases h
      · obtain rfl := Except.ok.inj h
        cases hkey
    · obtain rfl := Except.ok.inj h
      obtain rfl := Option.some.inj hkey
      rw [not_or] at hfresh
      exact ⟨rfl, Nat.le_of_not_lt hfresh.1⟩

theorem freshKeys_spec {keys fresh : List (Option PossibleKey)}
    (h : keys.mapM (freshKey c) = .ok fresh) :
    fresh.length = keys.length ∧ ∀ key : PossibleKey, some key ∈ fresh →
      some key ∈ keys ∧ c.line ≤ key.line := by
  induction keys generalizing fresh with
  | nil =>
    obtain rfl := Except.ok.inj h
    exact ⟨rfl, nofun⟩
  | cons key? keys ih =>
    rw [List.mapM_cons] at h
    obtain ⟨fresh?, hfresh, h⟩ := exists_of_bind_eq_ok h
    obtain ⟨fresh', hrest, h⟩ := exists_of_bind_eq_ok h
    obtain rfl := Except.ok.inj h
    obtain ⟨hlength, hmem⟩ := ih hrest
    refine ⟨congrArg (· + 1) hlength, fun key hkey => ?_⟩
    rcases List.mem_cons.1 hkey with hkey | hkey
    · obtain ⟨heq, hline⟩ := freshKey_spec hfresh hkey.symm
      exact ⟨List.mem_cons.2 (.inl heq.symm), hline⟩
    · obtain ⟨hkey, hline⟩ := hmem key hkey
      exact ⟨List.mem_cons_of_mem _ hkey, hline⟩

theorem dropStaleKeys_spec (h : s.dropStaleKeys = .ok t) :
    ∃ possibleKey outerKeys, t = { s with possibleKey, outerKeys } ∧
      outerKeys.length = s.outerKeys.length ∧
        ∀ key : PossibleKey, some key ∈ possibleKey :: outerKeys →
          some key ∈ s.possibleKey :: s.outerKeys ∧ s.cursor.line ≤ key.line := by
  obtain ⟨outerKeys, houter, h⟩ := exists_of_bind_eq_ok h
  obtain ⟨possibleKey, hpossible, h⟩ := exists_of_bind_eq_ok h
  obtain rfl := Except.ok.inj h
  obtain ⟨hlength, hmem⟩ := freshKeys_spec houter
  refine ⟨possibleKey, outerKeys, rfl, hlength, fun key hkey => ?_⟩
  rcases List.mem_cons.1 hkey with hkey | hkey
  · obtain ⟨heq, hline⟩ := freshKey_spec hpossible hkey.symm
    exact ⟨List.mem_cons.2 (.inl heq.symm), hline⟩
  · obtain ⟨hkey, hline⟩ := hmem key hkey
    exact ⟨List.mem_cons_of_mem _ hkey, hline⟩

theorem finish_spec {tokens : List Token} (h : s.finish = .ok tokens) :
    tokens = ((s.closeBlocks (-1)).tokens.reverse ++ [.streamEnd]) := by
  obtain ⟨t, ht, h⟩ := exists_of_bind_eq_ok h
  obtain ⟨u, hu, ht⟩ := exists_of_bind_eq_ok ht
  obtain rfl := Except.ok.inj ht
  obtain rfl := Except.ok.inj h
  rw [push, List.reverse_cons]
  unfold dropKey at hu
  split at hu
  · cases hu
  · obtain rfl := Except.ok.inj hu
    rfl

theorem Sealed.finish {tokens : List Token} (hs : Sealed front s) (h : s.finish = .ok tokens) :
    front <+: tokens := by
  rw [finish_spec h]
  exact (hs.closeBlocks (-1)).found.trans (List.prefix_append _ _)

/-- Passes what stands between tokens and gives up what does not reach the next one. -/
def settle (s : Scanner) : Except ReadError Scanner := do
  let s ← (s.skipToToken s.cursor.rounds).dropStaleKeys
  return s.closeBlocks s.cursor.column

theorem run_succ (fuel : Nat) (s : Scanner) : s.run (fuel + 1) = s.settle >>= fun t =>
    match t.cursor.peek? with
    | none => t.finish
    | some x => t.addToken x >>= run fuel := by
  unfold settle
  rw [run, bind_assoc]
  rfl

/-- Before a token is added, the scanner stands at its first character, and the keys that may still
come are on its line. -/
theorem settle_spec (hvalid : s.cursor.Valid) (h : s.settle = .ok t) :
    s.cursor.Advances t.cursor ∧ t.cursor.peek?.any isBreak = false ∧
      ∀ {front : List Token}, Sealed front s →
        Sealed front t ∧ (t.cursor.sees ':' = true →
          ∀ key : PossibleKey, t.possibleKey = some key → front.length ≤ key.position) := by
  obtain ⟨u, hu, h⟩ := exists_of_bind_eq_ok h
  obtain ⟨c, keyAllowed, hskip, hadvances, hend⟩ := skipToToken_spec s.cursor.rounds s
  rw [hskip] at hu
  obtain ⟨possibleKey, outerKeys, rfl, -, hkeys⟩ := dropStaleKeys_spec hu
  obtain ⟨tokens, count, indent, outerIndents, hclose⟩ := closeBlocks_frame
    { s with cursor := c, keyAllowed, possibleKey, outerKeys } c.column
  have ht := (Except.ok.inj h).symm.trans hclose
  subst ht
  refine ⟨hadvances, hend hvalid.length_lt_rounds, fun {front} hs => ?_⟩
  have hdrop : Sealed front { s with cursor := c, keyAllowed, possibleKey, outerKeys } :=
    (hs.goto hadvances).of_keys fun key hkey => (hkeys key hkey).1
  have hsealed := hdrop.closeBlocks c.column
  rw [hclose] at hsealed
  refine ⟨hsealed, fun hcolon key hkey => ?_⟩
  have hmem : some key ∈ possibleKey :: outerKeys := List.mem_cons.2 (.inl hkey.symm)
  rcases hsealed.keys key hmem with hposition | hline | ⟨-, hfree⟩
  · exact hposition
  · exact absurd hline (Nat.not_lt_of_le (hkeys key hmem).2)
  · rw [hfree.not_sees] at hcolon
    cases hcolon

/-- The tokens that do not change are the first tokens of the text. -/
theorem Sealed.run {fuel : Nat} {tokens : List Token} (hs : Sealed front s)
    (h : s.run fuel = .ok tokens) : front <+: tokens := by
  induction fuel generalizing s with
  | zero => exact hs.finish h
  | succ fuel ih =>
    rw [run_succ] at h
    obtain ⟨t, ht, h⟩ := exists_of_bind_eq_ok h
    obtain ⟨-, hend, hkeep⟩ := settle_spec hs.valid ht
    obtain ⟨hready, hkey⟩ := hkeep hs
    split at h
    · exact hready.finish h
    next x hx =>
      obtain ⟨u, hu, h⟩ := exists_of_bind_eq_ok h
      obtain ⟨rest, hrest⟩ := List.head?_eq_some_iff.1 hx
      have hbreak : isBreak x = false := by
        rw [hx] at hend
        exact hend
      obtain ⟨-, -, hsealed⟩ := addToken_spec hready.valid hrest hbreak hu
      refine ih (hsealed hready fun hcolon => hkey ?_) h
      rw [sees, hx, hcolon]
      rfl

end

end Scanner

end RamlDoc.Yaml
