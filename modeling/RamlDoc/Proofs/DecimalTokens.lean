import RamlDoc.Proofs.ScannersAligned

/-!
# Decimals as tokens

Where one of two aligned texts has a decimal in quotes, its scanner finds the decimal as a quoted
scalar. The other scanner finds an unquoted scalar, which is the decimal as well or goes on behind
it, or ends before the comma.
-/

namespace RamlDoc.Yaml

open Cursor

variable {c : Cursor} {decimal more : List Char} {fuel indent : Nat} {flow : Bool}

theorem advances_decimal (hrest : c.rest = decimal ++ more) (hdecimal : isDecimal decimal = true) :
    c.Advances (c.skip decimal.length) := by
  refine advances_skip fun x hx => ?_
  rw [hrest, List.take_left] at hx
  rcases digit_or_comma_of_isDecimal hdecimal hx with hx | rfl
  · exact not_isBreak_of_isDigit hx
  · decide

/-! ## The quoted decimal -/

theorem Quoted.read_of_decimal (hvalid : c.Valid) (hrest : c.rest = '"' :: (decimal ++ '"' :: more))
    (hdecimal : isDecimal decimal = true) :
    Quoted.read false c = .ok ⟨decimal, false, c.skip (decimal.length + 2)⟩ := by
  have hskip := advances_skip_one hrest (by decide)
  have hboundary : ∀ mark, (c.skip 1).atBoundary mark = false := fun mark => by
    have hcolumn : (c.skip 1).column ≠ 0 := Nat.succ_ne_zero c.column
    unfold atBoundary
    rw [decide_eq_false hcolumn]
    rfl
  have hempty : (c.skip 1).rest.isEmpty = false := by
    rw [skip_rest hrest]
    simp
  have hrounds := (hskip.valid hvalid).length_lt_rounds
  rw [skip_rest hrest, List.length_append, List.length_cons] at hrounds
  obtain ⟨fuel, hfuel⟩ : ∃ n, (c.skip 1).rounds = decimal.length + (n + 1) :=
    ⟨(c.skip 1).rounds - decimal.length - 1, by omega⟩
  have hend : ((c.skip 1).skip decimal.length).rest = '"' :: more := by
    rw [skip, skip_rest hrest]
    exact List.drop_left
  change Quoted.readFrom _ (_ + 1) _ _ = _
  rw [Quoted.readFrom_succ, hboundary, hboundary, hempty, hfuel,
    Quoted.readRun_of_decimal (skip_rest hrest) fun x => digit_or_comma_of_isDecimal hdecimal,
    Quoted.readRun, hend]
  have hsees : ((c.skip 1).skip decimal.length).sees (Quoted.closingQuote false) = true := by
    rw [sees, peek?, hend]
    rfl
  refine (if_pos hsees).trans ?_
  rw [List.append_nil, List.reverse_reverse, skip_skip, skip_skip, Nat.add_comm 1, Nat.add_assoc]

/-! ## The unquoted decimal -/

namespace Plain

theorem runLength_of_run {run : List Char}
    (hrun : ∀ x ∈ run, x.isDigit = true ∨ (x = ',' ∧ flow = false)) :
    runLength flow (run ++ more) = (runLength flow more).map (· + run.length) := by
  induction run with
  | nil =>
    rw [List.nil_append]
    cases runLength flow more <;> rfl
  | cons x run ih =>
    have hx := hrun x List.mem_cons_self
    have hinner : isSpace x = false ∧ isBreak x = false ∧ x ≠ ':' ∧
        (flow && isFlowIndicator x) = false := by
      rcases hx with hx | ⟨rfl, rfl⟩
      · have hends := endsColon_of_isDigit hx
        rw [Bool.or_eq_false_iff] at hends
        refine ⟨not_isSpace_of_isDigit hx, not_isBreak_of_isDigit hx, ?_, ?_⟩
        · rintro rfl
          cases hx
        · rw [hends.1, Bool.and_false]
      · exact ⟨by decide, by decide, by decide, rfl⟩
    obtain ⟨hspace, hbreak, hcolon, hflow⟩ := hinner
    rw [List.cons_append, runLength, ih fun y hy => hrun y (List.mem_cons_of_mem x hy)]
    simp only [hspace, hbreak, hcolon, hflow, decide_false, Bool.or_self, Bool.false_and,
      Bool.and_false, Bool.false_eq_true, if_false]
    cases runLength flow more <;> rfl

/-- A scalar whose text does not grow ends where it is. -/
theorem readFrom_of_text {before : List Char} {gap : Gap} {r : ScannedScalar} (hc : c.AtText)
    (h : readFrom flow indent fuel before gap c = .ok r) (htext : r.text = before.reverse) :
    r.broken = gap.broken ∧ r.cursor = c := by
  cases fuel with
  | zero =>
    obtain rfl := Except.ok.inj h
    exact ⟨rfl, rfl⟩
  | succ fuel =>
    rw [readFrom_succ] at h
    split at h
    · obtain rfl := Except.ok.inj h
      exact ⟨rfl, rfl⟩
    obtain ⟨count, hcount, h⟩ := exists_of_bind_eq_ok h
    split at h
    · unfold afterRun at h
      rw [atText_iff.1 hc] at h
      obtain rfl := Except.ok.inj h
      exact ⟨rfl, rfl⟩
    next hpos =>
      have hlength := (afterRun_spec h).1.length_le
      rw [htext, List.length_reverse, List.length_reverse, List.length_append, List.length_append,
        List.length_reverse, List.length_take] at hlength
      cases hrest : c.rest with
      | nil =>
        rw [hrest] at hcount
        exact absurd (Except.ok.inj hcount).symm hpos
      | cons x rest =>
        rw [hrest, List.length_cons] at hlength
        omega

theorem read_of_run {run : List Char} (hrest : c.rest = run ++ more) (hne : run ≠ [])
    (hrun : ∀ x ∈ run, x.isDigit = true ∨ (x = ',' ∧ flow = false))
    (hstop : runLength flow more = .ok 0) :
    ∃ fuel, read flow indent c =
      afterRun flow indent fuel run.reverse Gap.empty (c.skip run.length) := by
  obtain ⟨x, tail, rfl⟩ := List.exists_cons_of_ne_nil hne
  have hx : ∀ mark, mark.isDigit = false → mark ≠ ',' → x ≠ mark := by
    rintro mark hdigit hcomma rfl
    rcases hrun x List.mem_cons_self with hx | ⟨hx, -⟩
    · rw [hdigit] at hx
      cases hx
    · exact hcomma hx
  have hsign : c.sees '#' = false := by
    rw [sees, peek?, hrest]
    exact decide_eq_false fun heq => hx '#' (by decide) (by decide) (Option.some.inj heq)
  have htake : c.rest.take (x :: tail).length = x :: tail := by rw [hrest, List.take_left]
  have hlength : runLength flow c.rest = .ok (x :: tail).length := by
    rw [hrest, runLength_of_run hrun, hstop]
    exact congrArg Except.ok (Nat.zero_add _)
  refine ⟨c.size - c.offset, ?_⟩
  change readFrom _ _ (_ + 1) _ _ _ = _
  have hpos : (x :: tail).length ≠ 0 := Nat.succ_ne_zero tail.length
  rw [readFrom_succ, atBoundary_of_ne hrest (hx '-' (by decide) (by decide)),
    atBoundary_of_ne hrest (hx '.' (by decide) (by decide)), hsign, hlength, Bool.or_self,
    Bool.or_self, if_neg Bool.false_ne_true, ok_bind, if_neg hpos, htake]
  exact congrArg (afterRun flow indent _ · _ _) (List.append_nil _)

theorem runLength_of_blank (hmore : ∀ x ∈ more.head?, isSpace x = true ∨ isBreak x = true) :
    runLength flow more = .ok 0 := by
  cases more with
  | nil => rfl
  | cons x rest =>
    have hx := hmore x rfl
    rw [runLength, if_pos (by simpa using hx)]

/-- In a flow collection an unquoted scalar ends before the comma of a decimal. -/
theorem flow_of_read_decimal {r : ScannedScalar} (hrest : c.rest = decimal ++ more)
    (hdecimal : isDecimal decimal = true) (h : read flow indent c = .ok r)
    (htext : r.text = decimal) : flow = false := by
  cases flow with
  | false => rfl
  | true =>
    obtain ⟨digits, rest, hsplit, hne, -, hdigits, -⟩ := isDecimal_iff.1 hdecimal
    have hrest' : c.rest = digits ++ ',' :: (rest ++ more) := by
      rw [hrest, hsplit, List.append_assoc, List.cons_append]
    have hstop : runLength true (',' :: (rest ++ more)) = .ok 0 := rfl
    obtain ⟨fuel, heq⟩ := @read_of_run c _ indent true _ hrest' hne
      (fun x hx => .inl (hdigits x hx)) hstop
    have hend : (c.skip digits.length).peek? = some ',' := by
      rw [peek?, skip, hrest', List.drop_left]
      rfl
    unfold afterRun at heq
    rw [hend] at heq
    obtain rfl := Except.ok.inj (h.symm.trans heq)
    change digits.reverse.reverse = decimal at htext
    have hlength := congrArg List.length (htext.trans hsplit)
    rw [List.reverse_reverse, List.length_append, List.length_cons] at hlength
    omega

/-- Outside of flow collections an unquoted scalar that is a decimal ends where the gap behind it
does. -/
theorem gap_of_read_decimal {r : ScannedScalar} (hrest : c.rest = decimal ++ more)
    (hdecimal : isDecimal decimal = true)
    (hmore : ∀ x ∈ more.head?, isSpace x = true ∨ isBreak x = true) (hvalid : c.Valid)
    (h : read false indent c = .ok r) (htext : r.text = decimal) :
    ∃ gap, Gap.read (some indent) (c.skip decimal.length).rounds Gap.empty
      (c.skip decimal.length) = .ok (gap, r.cursor) ∧ r.broken = gap.broken := by
  obtain ⟨fuel, heq⟩ := @read_of_run c more indent false _ hrest
    (List.ne_nil_of_mem (comma_mem_of_isDecimal hdecimal))
    (fun x hx => (digit_or_comma_of_isDecimal hdecimal hx).imp_right fun hx => ⟨hx, rfl⟩)
    (runLength_of_blank hmore)
  rw [h] at heq
  have hvalid' := (advances_decimal hrest hdecimal).valid hvalid
  generalize c.skip decimal.length = d at *
  unfold afterRun at heq
  rcases cases_of_ite heq.symm with ⟨-, hafter⟩ | ⟨hblank, hafter⟩
  · obtain ⟨⟨gap, e⟩, hgap, hafter⟩ := exists_of_bind_eq_ok hafter
    have htexts := (Gap.read_aligned (paired_self hvalid') hvalid'.length_lt_rounds
      hvalid'.length_lt_rounds _ _ hgap hgap).atText
    refine ⟨gap, ?_⟩
    rcases cases_of_ite hafter with ⟨-, hafter⟩ | ⟨-, hafter⟩
    · obtain rfl := Except.ok.inj hafter
      exact ⟨hgap, rfl⟩
    · obtain ⟨hbroken, hcursor⟩ := readFrom_of_text htexts hafter
        (by rw [htext, List.reverse_reverse])
      rw [hcursor]
      exact ⟨hgap, hbroken⟩
  · obtain rfl := Except.ok.inj hafter
    have htext : d.AtText := atText_iff.2 (Bool.eq_false_iff.2 hblank)
    exact ⟨Gap.empty, Gap.read_of_text htext, rfl⟩

end Plain

/-! ## The gap behind it -/

namespace Gap

variable {indent? : Option Nat} {blanks cs text rest : List Char} {gap : Gap} {r : Gap × Cursor}

theorem exists_read_of_space {x : Char} (hrest : c.rest = x :: rest) (hx : isSpace x = true)
    (h : read indent? (fuel + 1) gap c = .ok r) :
    ∃ gap', read indent? fuel gap' (c.skip 1) = .ok r := by
  rw [read_of_space hrest hx] at h
  rcases cases_of_ite h with ⟨-, h⟩ | ⟨-, h⟩
  · rcases cases_of_ite h with ⟨-, h⟩ | ⟨-, h⟩
    · cases h
    · exact ⟨_, h⟩
  · exact ⟨_, h⟩

theorem exists_read_of_break (hbreak : BreakAt c.rest text rest)
    (h : read indent? (fuel + 1) gap c = .ok r) :
    ∃ gap', gap'.broken = true ∧ read indent? fuel gap' c.readBreak.2 = .ok r := by
  rw [read_of_break hbreak] at h
  refine ⟨_, ?_, h⟩
  split
  next hbroken => exact hbroken
  next => rfl

/-- What is read of a gap is read from behind a break on, which `rest` stands behind. -/
inductive ReadsBehind (indent? : Option Nat) (rest : List Char) (r : Gap × Cursor)
    (c : Cursor) : Prop
  | intro (d : Cursor) (fuel : Nat) (gap : Gap) (advances : c.Advances d) (later : c.line < d.line)
      (rest_eq : d.rest = rest) (column : d.column = 0) (broken : gap.broken = true)
      (read : Gap.read indent? fuel gap d = .ok r)

theorem ReadsBehind.after {d : Cursor} (hd : c.Advances d) (h : ReadsBehind indent? rest r d) :
    ReadsBehind indent? rest r c := by
  obtain ⟨e, fuel, gap, he, hline, hrest, hcolumn, hbroken, h⟩ := h
  exact ⟨e, fuel, gap, hd.trans he, Nat.lt_of_le_of_lt hd.line_le hline, hrest, hcolumn, hbroken, h⟩

theorem readsBehind_of_break (hbreak : BreakAt c.rest text rest)
    (h : read indent? (fuel + 1) gap c = .ok r) : ReadsBehind indent? rest r c := by
  obtain ⟨-, hrest, hcolumn, hline, hadvances⟩ := readBreak_spec hbreak
  obtain ⟨gap', hbroken, h⟩ := exists_read_of_break hbreak h
  exact ⟨_, fuel, gap', hadvances, hline, hrest, hcolumn, hbroken, h⟩

/-- The break that begins blanks is one of them, or it is the return at their end and the line feed
behind it. -/
theorem breakAt_of_blanks (blanks : List Char) {x : Char} (hx : isBreak x = true)
    (hbreak : BreakAt cs text rest) :
    (∃ text', BreakAt (x :: (blanks ++ cs)) text' rest) ∨
      ∃ text' later, (∀ y ∈ later, y ∈ blanks) ∧
        BreakAt (x :: (blanks ++ cs)) text' (later ++ cs) := by
  by_cases hfeed : x = '\r' ∧ (blanks ++ cs).head? = some '\n'
  · obtain ⟨rfl, hhead⟩ := hfeed
    cases blanks with
    | nil =>
      obtain ⟨tail, rfl⟩ := List.head?_eq_some_iff.1 hhead
      cases hbreak with
      | one => exact .inl ⟨_, .crlf⟩
    | cons y blanks =>
      obtain rfl := Option.some.inj hhead
      exact .inr ⟨_, blanks, fun y => List.mem_cons_of_mem _, .crlf⟩
  · exact .inr ⟨_, blanks, fun _ => id, .one hx fun heq hhead => hfeed ⟨heq, hhead⟩⟩

/-- A gap that begins with blanks before a break is read on behind that break. -/
theorem read_of_blanks (hrest : c.rest = blanks ++ cs)
    (hblanks : ∀ x ∈ blanks, isSpace x = true ∨ isBreak x = true) (hbreak : BreakAt cs text rest)
    (hf : c.rest.length < fuel) (h : read indent? fuel gap c = .ok r) :
    ReadsBehind indent? rest r c := by
  induction fuel generalizing blanks gap c with
  | zero => omega
  | succ fuel ih =>
    cases blanks with
    | nil =>
      have hbreak' : BreakAt c.rest text rest := by rw [hrest]; exact hbreak
      exact readsBehind_of_break hbreak' h
    | cons x blanks =>
      have htail : ∀ y ∈ blanks, isSpace y = true ∨ isBreak y = true := fun y hy =>
        hblanks y (List.mem_cons_of_mem x hy)
      rcases hblanks x List.mem_cons_self with hx | hx
      · have hlength := length_skip_lt hrest Nat.one_pos
        obtain ⟨gap', h⟩ := exists_read_of_space hrest hx h
        exact (ih (skip_rest hrest) htail (by omega) h).after
          (advances_skip_one hrest (isBreak_of_isSpace hx))
      rcases breakAt_of_blanks blanks hx hbreak with
        ⟨text', hfirst⟩ | ⟨text', later, hlater, hfirst⟩
      · have hfirst' : BreakAt c.rest text' rest := by rw [hrest]; exact hfirst
        exact readsBehind_of_break hfirst' h
      · have hfirst' : BreakAt c.rest text' (later ++ cs) := by rw [hrest]; exact hfirst
        obtain ⟨-, hrest', -, -, hadvances⟩ := readBreak_spec hfirst'
        obtain ⟨gap', -, h⟩ := exists_read_of_break hfirst' h
        have hlength := hfirst'.length_lt
        rw [← hrest'] at hlength
        exact (ih hrest' (fun y hy => htail y (hlater y hy)) (by omega) h).after hadvances

theorem rest_of_blanks (hvalid : c.Valid)
    (hblanks : ∀ x ∈ c.rest, isSpace x = true ∨ isBreak x = true)
    (h : read indent? c.rounds gap c = .ok r) : r.2.rest = [] := by
  have htext := (read_aligned (paired_self hvalid) hvalid.length_lt_rounds hvalid.length_lt_rounds
    _ _ h h).atText
  obtain ⟨passed, hrest, -⟩ := (read_advances h).passes
  cases hend : r.2.rest with
  | nil => rfl
  | cons x rest =>
    obtain ⟨hspace, hbreak⟩ := htext x (by rw [hend]; rfl)
    have hmem : x ∈ c.rest := by
      rw [hrest, hend]
      exact List.mem_append_right _ List.mem_cons_self
    rcases hblanks x hmem with hx | hx
    · rw [hspace] at hx
      cases hx
    · rw [hbreak] at hx
      cases hx

end Gap

end RamlDoc.Yaml
