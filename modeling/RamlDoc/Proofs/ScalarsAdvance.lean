import RamlDoc.Proofs.Cursors
import RamlDoc.Yaml.Token.Scalar

/-!
# Advancing through scalars

Reading a scalar moves the cursor forward and only adds to the text that is read of it.
-/

namespace RamlDoc.Yaml

open Cursor

theorem cases_of_ite {α : Type} {p : Prop} [Decidable p] {a b r : α}
    (h : (if p then a else b) = r) : (p ∧ a = r) ∨ (¬p ∧ b = r) := by
  by_cases hp : p
  · exact .inl ⟨hp, (if_pos hp).symm.trans h⟩
  · exact .inr ⟨hp, (if_neg hp).symm.trans h⟩

/-! ## The form of a reader

A reader that is written step by step is brought to one form by these equations, in which a failure
ends it at once and a check is passed where it holds. -/

section

variable {ε α β : Type}

theorem pure_eq_ok (a : α) : (pure a : Except ε α) = .ok a := rfl

theorem ok_bind (a : α) (k : α → Except ε β) : ((.ok a : Except ε α) >>= k) = k a := rfl

theorem error_bind (error : ε) (k : α → Except ε β) :
    ((.error error : Except ε α) >>= k) = .error error := rfl

theorem throw_bind (error : ε) (k : α → Except ε β) : (throw error >>= k) = .error error := rfl

theorem ite_bind (p : Prop) [Decidable p] (r s : Except ε α) (k : α → Except ε β) :
    (if p then r else s) >>= k = if p then r >>= k else s >>= k := by
  split <;> rfl

theorem ite_not_eq_true (b : Bool) (r s : α) :
    (if (!b) = true then r else s) = if b = true then s else r := by
  cases b <;> rfl

end

/-! ## Digits -/

theorem digitValue?_of_digitsAfter? {base value n : Nat} {cs : List Char}
    (h : Scalar.digitsAfter? base value cs = some n) {x : Char} (hx : x ∈ cs) :
    (Scalar.digitValue? x).isSome = true := by
  induction cs generalizing value with
  | nil => cases hx
  | cons c cs ih =>
    rw [Scalar.digitsAfter?] at h
    split at h
    next d hd =>
      split at h
      · rcases List.mem_cons.1 hx with rfl | hx
        · rw [hd]
          rfl
        · exact ih h hx
      · cases h
    next => cases h

theorem isInner_of_digits? {base n : Nat} {cs : List Char} (h : Scalar.digits? base cs = some n)
    {x : Char} (hx : x ∈ cs) : IsInner x := by
  unfold Scalar.digits? at h
  split at h
  · cases h
  · exact isInner_of (digitValue?_of_digitsAfter? h hx) (by decide) (by decide)

/-! ## Gaps and scalars -/

namespace Gap

variable {indent? : Option Nat} {fuel : Nat} {gap : Gap} {c : Cursor}

theorem read_advances {r : Gap × Cursor} (h : read indent? fuel gap c = .ok r) :
    c.Advances r.2 := by
  induction fuel generalizing gap c with
  | zero =>
    obtain rfl := Except.ok.inj h
    exact .refl c
  | succ fuel ih =>
    rw [read] at h
    split at h
    · obtain rfl := Except.ok.inj h
      exact .refl c
    next x hx =>
      obtain ⟨rest, hrest⟩ := List.head?_eq_some_iff.1 hx
      split at h
      next hspace =>
        have hskip := advances_skip_one hrest (isBreak_of_isSpace hspace)
        split at h
        · split at h
          · cases h
          · exact hskip.trans (ih h)
        · exact hskip.trans (ih h)
      next =>
        split at h
        · dsimp only at h
          split at h
          · exact (advances_readBreak c).trans (ih h)
          · exact (advances_readBreak c).trans (ih h)
        · obtain rfl := Except.ok.inj h
          exact .refl c

end Gap

namespace Quoted

variable {single : Bool} {fuel : Nat} {before : List Char} {c : Cursor}

theorem isInner_of_escapeDigits? {x : Char} {count : Nat} (h : escapeDigits? x = some count) :
    IsInner x :=
  isInner_of (f := escapeDigits?) (by rw [h]; rfl) (by decide) (by decide)

theorem isInner_of_escapeChar? {x y : Char} (h : escapeChar? x = some y) : IsInner x :=
  isInner_of (f := escapeChar?) (by rw [h]; rfl) rfl (by decide)

theorem eq_cons_of_take_succ {x : Char} {rest ds : List Char} {count : Nat}
    (h : ds.take (count + 1) = (x :: rest).take (count + 1)) :
    ∃ rest', ds = x :: rest' ∧ rest'.take count = rest.take count := by
  cases ds with
  | nil => cases h
  | cons y rest' =>
    obtain ⟨rfl, hrest⟩ := List.cons.inj h
    exact ⟨rest', rfl, hrest⟩

/-- An escape is made of the characters that it takes. -/
theorem escape?_eq_some {cs : List Char} {y : Char} {count : Nat} (h : escape? cs = some (y, count)) :
    (cs.take count).length = count ∧ (∀ x ∈ cs.take count, IsInner x) ∧
      ∀ ds : List Char, ds.take count = cs.take count → escape? ds = some (y, count) := by
  cases cs with
  | nil => cases h
  | cons x rest =>
    unfold escape? at h
    dsimp only at h
    split at h
    next digits hdigits =>
      split at h
      · cases h
      next hlength =>
        split at h
        next n hn =>
          split at h
          next hvalid =>
            obtain ⟨rfl, rfl⟩ := Prod.mk.inj (Option.some.inj h)
            refine ⟨?_, fun z hz => ?_, fun ds hds => ?_⟩
            · rw [List.take_succ_cons, List.length_cons]
              have := List.length_take_le digits rest
              omega
            · rcases List.mem_cons.1 hz with rfl | hz
              · exact isInner_of_escapeDigits? hdigits
              · exact isInner_of_digits? hn hz
            · obtain ⟨rest', rfl, hrest⟩ := eq_cons_of_take_succ hds
              simp only [escape?, hdigits, hrest, hlength, if_false, hn, hvalid, if_true]
          next => cases h
        next => cases h
    next hdigits =>
      obtain ⟨z, hz, heq⟩ := Option.map_eq_some_iff.1 h
      obtain ⟨rfl, rfl⟩ := Prod.mk.inj heq
      refine ⟨rfl, fun w hw => ?_, fun ds hds => ?_⟩
      · obtain rfl := List.mem_singleton.1 hw
        exact isInner_of_escapeChar? hz
      · obtain ⟨rest', rfl, -⟩ := eq_cons_of_take_succ hds
        simp only [escape?, hdigits, hz, Option.map_some]

theorem advances_escape {x y : Char} {rest : List Char} {count : Nat} (hrest : c.rest = x :: rest)
    (hx : isBreak x = false) (h : escape? rest = some (y, count)) :
    c.Advances (c.skip (count + 1)) := by
  refine advances_skip fun z hz => ?_
  rw [hrest, List.take_succ_cons] at hz
  rcases List.mem_cons.1 hz with rfl | hz
  · exact hx
  · exact ((escape?_eq_some h).2.1 z hz).1

theorem prefix_of_cons {x : Char} {text : List Char} (h : (x :: before).reverse <+: text) :
    before.reverse <+: text := by
  rw [List.reverse_cons] at h
  exact (List.prefix_append _ _).trans h

/-- A run of characters adds to the text. -/
theorem readRun_spec {r : List Char × Stop × Cursor} (h : readRun single fuel before c = .ok r) :
    before.reverse <+: r.1.reverse ∧ c.Advances r.2.2 := by
  induction fuel generalizing before c with
  | zero =>
    obtain rfl := Except.ok.inj h
    exact ⟨List.prefix_rfl, .refl c⟩
  | succ fuel ih =>
    have hnext : ∀ {y : Char} {count : Nat},
        readRun single fuel (y :: before) (c.skip count) = .ok r → c.Advances (c.skip count) →
          before.reverse <+: r.1.reverse ∧ c.Advances r.2.2 := by
      intro y count h hskip
      obtain ⟨htext, hadvances⟩ := ih h
      exact ⟨prefix_of_cons htext, hskip.trans hadvances⟩
    rw [readRun] at h
    split at h
    · obtain rfl := Except.ok.inj h
      exact ⟨List.prefix_rfl, .refl c⟩
    next x rest hrest =>
      split at h
      · obtain rfl := Except.ok.inj h
        exact ⟨List.prefix_rfl, .refl c⟩
      next hblank =>
        have hx : isBreak x = false := by
          simp only [Bool.or_eq_true, not_or, Bool.not_eq_true] at hblank
          exact hblank.2
        have hskip := advances_skip_one hrest hx
        split at h
        · split at h
          next hquote =>
            split at h
            next hdouble =>
              refine hnext h ?_
              obtain ⟨rest', rfl⟩ := List.head?_eq_some_iff.1 hdouble
              refine advances_skip fun z hz => ?_
              rw [hrest, hquote] at hz
              simp only [List.take_succ_cons, List.take_zero, List.mem_cons, List.not_mem_nil,
                or_false, or_self] at hz
              rw [hz]
              decide
            · obtain rfl := Except.ok.inj h
              exact ⟨List.prefix_rfl, .refl c⟩
          · exact hnext h hskip
        · split at h
          · obtain rfl := Except.ok.inj h
            exact ⟨List.prefix_rfl, .refl c⟩
          · split at h
            · split at h
              · obtain rfl := Except.ok.inj h
                exact ⟨List.prefix_rfl, hskip.trans (advances_readBreak _)⟩
              · split at h
                next hescape => exact hnext h (advances_escape hrest hx hescape)
                next => cases h
            · exact hnext h hskip

/-- The quote at the end of a quoted scalar. -/
def closingQuote (single : Bool) : Char := if single then '\'' else '"'

/-- Reads what follows a run of characters: the quote at the end, or a gap and the next run. -/
def afterRun (single : Bool) (fuel : Nat) (run : List Char × Stop × Cursor) :
    Except ReadError ScannedScalar :=
  if run.2.2.sees (closingQuote single) then
    .ok ⟨run.1.reverse, false, run.2.2.skip 1⟩
  else do
    let gap ← Gap.read none run.2.2.rounds ⟨[], [], [], run.2.1 = .escapedBreak⟩ run.2.2
    readFrom single fuel (gap.1.folded.reverse ++ run.1) gap.2

theorem readFrom_succ : readFrom single (fuel + 1) before c =
    if c.atBoundary '-' || c.atBoundary '.' then .error .boundaryInQuote
    else if c.rest.isEmpty then .error .unclosedQuote
    else readRun single c.rounds before c >>= afterRun single fuel := by
  rw [readFrom]
  split
  · rfl
  · dsimp only
    split <;> rfl

theorem afterRun_spec_of {run : List Char × Stop × Cursor} {r : ScannedScalar}
    (hread : ∀ before c, readFrom single fuel before c = .ok r →
      before.reverse <+: r.text ∧ c.Advances r.cursor)
    (h : afterRun single fuel run = .ok r) :
    run.1.reverse <+: r.text ∧ run.2.2.Advances r.cursor := by
  unfold afterRun at h
  split at h
  next hquote =>
    obtain rfl := Except.ok.inj h
    obtain ⟨rest, hrest⟩ := List.head?_eq_some_iff.1 (of_decide_eq_true hquote)
    refine ⟨List.prefix_rfl, advances_skip_one hrest ?_⟩
    cases single <;> decide
  next =>
    obtain ⟨gap, hgap, h⟩ := exists_of_bind_eq_ok h
    obtain ⟨htext, hadvances⟩ := hread _ _ h
    rw [List.reverse_append] at htext
    exact ⟨(List.prefix_append _ _).trans htext, (Gap.read_advances hgap).trans hadvances⟩

/-- A quoted scalar adds to the text. -/
theorem readFrom_spec {r : ScannedScalar} (h : readFrom single fuel before c = .ok r) :
    before.reverse <+: r.text ∧ c.Advances r.cursor := by
  induction fuel generalizing before c with
  | zero => cases h
  | succ fuel ih =>
    rw [readFrom_succ] at h
    split at h
    · cases h
    split at h
    · cases h
    obtain ⟨run, hrun, h⟩ := exists_of_bind_eq_ok h
    obtain ⟨htext, hadvances⟩ := readRun_spec hrun
    obtain ⟨htext', hadvances'⟩ := afterRun_spec_of (fun _ _ => ih) h
    exact ⟨htext.trans htext', hadvances.trans hadvances'⟩

theorem afterRun_spec {run : List Char × Stop × Cursor} {r : ScannedScalar}
    (h : afterRun single fuel run = .ok r) :
    run.1.reverse <+: r.text ∧ run.2.2.Advances r.cursor :=
  afterRun_spec_of (fun _ _ => readFrom_spec) h

end Quoted

namespace Plain

variable {flow : Bool} {fuel indent : Nat} {before : List Char} {gap : Gap} {c : Cursor}

theorem not_isBreak_of_runLength {cs : List Char} {count : Nat}
    (h : runLength flow cs = .ok count) : ∀ x ∈ cs.take count, isBreak x = false := by
  induction cs generalizing count with
  | nil => exact fun x hx => by simp at hx
  | cons x rest ih =>
    have hzero : (.ok 0 : Except ReadError Nat) = .ok count →
        ∀ y ∈ (x :: rest).take count, isBreak y = false := by
      rintro heq
      obtain rfl := Except.ok.inj heq
      exact nofun
    rw [runLength] at h
    split at h
    · exact hzero h
    next hblank =>
      split at h
      · cases h
      split at h
      · exact hzero h
      split at h
      · exact hzero h
      cases hrun : runLength flow rest with
      | error => rw [hrun] at h; cases h
      | ok n =>
        rw [hrun] at h
        obtain rfl := Except.ok.inj h
        intro y hy
        rcases List.mem_cons.1 hy with rfl | hy
        · simp only [Bool.or_eq_true, not_or, Bool.not_eq_true] at hblank
          exact hblank.2
        · exact ih hrun y hy

/-- Reads what follows a run of characters: nothing, or a gap and the next run. -/
def afterRun (flow : Bool) (indent fuel : Nat) (before : List Char) (gap : Gap) (c : Cursor) :
    Except ReadError ScannedScalar :=
  if c.peek?.any fun x => isSpace x || isBreak x then do
    let more ← gap.read (some indent) c.rounds c
    if !flow && more.2.column < indent then .ok ⟨before.reverse, more.1.broken, more.2⟩
    else readFrom flow indent fuel before more.1 more.2
  else .ok ⟨before.reverse, gap.broken, c⟩

theorem readFrom_succ : readFrom flow indent (fuel + 1) before gap c =
    if c.atBoundary '-' || c.atBoundary '.' || c.sees '#' then
      .ok ⟨before.reverse, gap.broken, c⟩
    else runLength flow c.rest >>= fun count =>
      if count = 0 then afterRun flow indent fuel before gap c
      else afterRun flow indent fuel ((c.rest.take count).reverse ++ (gap.folded.reverse ++ before))
        Gap.empty (c.skip count) := by
  rw [readFrom]
  split
  · rfl
  · dsimp only
    congr 1
    funext count
    by_cases hcount : count = 0
    · subst hcount
      rw [skip_zero, if_pos rfl, if_pos rfl]
      unfold afterRun
      cases hpeek : c.peek? with
      | none => rfl
      | some x => rfl
    · rw [if_neg hcount, if_neg hcount]
      unfold afterRun
      cases hpeek : (c.skip count).peek? with
      | none => rfl
      | some x => rfl

theorem afterRun_spec_of {r : ScannedScalar}
    (hread : ∀ before gap c, readFrom flow indent fuel before gap c = .ok r →
      before.reverse <+: r.text ∧ c.Advances r.cursor)
    (h : afterRun flow indent fuel before gap c = .ok r) :
    before.reverse <+: r.text ∧ c.Advances r.cursor := by
  unfold afterRun at h
  split at h
  · obtain ⟨more, hmore, h⟩ := exists_of_bind_eq_ok h
    have hgap := Gap.read_advances hmore
    split at h
    · obtain rfl := Except.ok.inj h
      exact ⟨List.prefix_rfl, hgap⟩
    · obtain ⟨htext, hadvances⟩ := hread _ _ _ h
      exact ⟨htext, hgap.trans hadvances⟩
  · obtain rfl := Except.ok.inj h
    exact ⟨List.prefix_rfl, .refl c⟩

/-- An unquoted scalar adds to the text. -/
theorem readFrom_spec {r : ScannedScalar} (h : readFrom flow indent fuel before gap c = .ok r) :
    before.reverse <+: r.text ∧ c.Advances r.cursor := by
  induction fuel generalizing before gap c with
  | zero =>
    obtain rfl := Except.ok.inj h
    exact ⟨List.prefix_rfl, .refl c⟩
  | succ fuel ih =>
    rw [readFrom_succ] at h
    split at h
    · obtain rfl := Except.ok.inj h
      exact ⟨List.prefix_rfl, .refl c⟩
    obtain ⟨count, hcount, h⟩ := exists_of_bind_eq_ok h
    split at h
    · exact afterRun_spec_of (fun _ _ _ => ih) h
    · obtain ⟨htext, hadvances⟩ := afterRun_spec_of (fun _ _ _ => ih) h
      refine ⟨?_, (advances_skip (not_isBreak_of_runLength hcount)).trans hadvances⟩
      rw [List.reverse_append, List.reverse_append, List.append_assoc] at htext
      exact (List.prefix_append _ _).trans htext

theorem afterRun_spec {r : ScannedScalar} (h : afterRun flow indent fuel before gap c = .ok r) :
    before.reverse <+: r.text ∧ c.Advances r.cursor :=
  afterRun_spec_of (fun _ _ _ => readFrom_spec) h

end Plain

namespace Block

variable {literal : Bool} {fuel indent deepest : Nat} {breaks : List Char} {content : Content}
  {c : Cursor}

theorem ne_space_of_isBreak (x : Char) (hx : isBreak x = true) : decide (x = ' ') = false := by
  refine decide_eq_false ?_
  rintro rfl
  cases hx

theorem readBreaks_advances {r : List Char × Nat × Cursor}
    (h : readBreaks indent fuel breaks deepest c = .ok r) : c.Advances r.2.2 := by
  induction fuel generalizing breaks deepest c with
  | zero =>
    obtain rfl := Except.ok.inj h
    exact .refl c
  | succ fuel ih =>
    rw [readBreaks] at h
    dsimp only at h
    generalize hcount : (if indent = 0 then (c.takeWhile fun x => decide (x = ' ')).length
      else min (c.takeWhile fun x => decide (x = ' ')).length (indent - c.column)) = count at h
    have hskip : c.Advances (c.skip count) := by
      refine advances_skip_of_le ne_space_of_isBreak ?_
      rw [← hcount]
      split
      · exact Nat.le_refl _
      · exact Nat.min_le_left _ _
    split at h
    · cases h
    split at h
    · exact (hskip.trans (advances_readBreak _)).trans (ih h)
    · obtain rfl := Except.ok.inj h
      exact hskip

/-- The line that is next, without its end. -/
def nextLine (c : Cursor) : List Char := c.takeWhile fun x => !isBreak x

/-- The line break behind the line that is next, and the cursor behind it. -/
def behindLine (c : Cursor) : List Char × Cursor := (c.skipWhile fun x => !isBreak x).readBreak

theorem readLines_succ : readLines literal indent (fuel + 1) content c =
    if c.column ≠ indent || c.rest.isEmpty then .ok (content, c)
    else readBreaks indent (behindLine c).2.rounds [] 0 (behindLine c).2 >>= fun more =>
      readLines literal indent fuel
        ⟨(nextLine c).reverse ++ content.joined literal (c.peek?.any isSpace), (behindLine c).1,
          more.1, c.peek?.any isSpace⟩ more.2.2 := by
  rw [readLines]
  split <;> rfl

theorem advances_behindLine (c : Cursor) : c.Advances (behindLine c).2 :=
  (advances_skipWhile fun x hx => by rw [hx]; rfl).trans (advances_readBreak _)

/-- The lines of a block scalar add to the text. -/
theorem readLines_spec {r : Content × Cursor}
    (h : readLines literal indent fuel content c = .ok r) :
    content.before.reverse <+: r.1.before.reverse ∧ c.Advances r.2 := by
  induction fuel generalizing content c with
  | zero =>
    obtain rfl := Except.ok.inj h
    exact ⟨List.prefix_rfl, .refl c⟩
  | succ fuel ih =>
    rw [readLines_succ] at h
    split at h
    · obtain rfl := Except.ok.inj h
      exact ⟨List.prefix_rfl, .refl c⟩
    obtain ⟨more, hmore, h⟩ := exists_of_bind_eq_ok h
    obtain ⟨htext, hadvances⟩ := ih h
    refine ⟨?_, ((advances_behindLine c).trans (readBreaks_advances hmore)).trans hadvances⟩
    dsimp only [Content.joined] at htext
    simp only [List.reverse_append, List.append_assoc] at htext
    exact (List.prefix_append _ _).trans htext

end Block

end RamlDoc.Yaml
