import RamlDoc.Proofs.Alignment
import RamlDoc.Proofs.ScalarsAdvance

/-!
# Scalars in aligned texts

Two readers that run over aligned texts are compared where both succeed (`Both`). The gaps between
the parts of a scalar are the same (`Gap.read_aligned`), and so are unquoted scalars in front of the
next decimal in quotes (`Plain.read_aligned`), since they end before the colon.
-/

namespace RamlDoc.Yaml

open Cursor

/-- What two readers give goes together, where both give something. -/
def Both {ε α β : Type} (P : α → β → Prop) (r : Except ε α) (r' : Except ε β) : Prop :=
  ∀ a b, r = .ok a → r' = .ok b → P a b

section

variable {ε α β γ δ : Type} {P : α → β → Prop} {Q : γ → δ → Prop}

theorem Both.ok {a : α} {b : β} (h : P a b) : Both P (.ok a : Except ε α) (.ok b) := by
  intro a' b' ha hb
  obtain rfl := Except.ok.inj ha
  obtain rfl := Except.ok.inj hb
  exact h

theorem Both.error_left (error : ε) (r : Except ε β) : Both P (.error error : Except ε α) r := nofun

theorem Both.error_right (error : ε) (r : Except ε α) : Both P r (.error error : Except ε β) :=
  fun _ _ _ => nofun

theorem Both.bind {r : Except ε α} {r' : Except ε β} {k : α → Except ε γ} {k' : β → Except ε δ}
    (h : Both P r r') (hk : ∀ a b, P a b → Both Q (k a) (k' b)) : Both Q (r >>= k) (r' >>= k') := by
  cases r with
  | error => exact .error_left _ _
  | ok a =>
    cases r' with
    | error => exact .error_right _ _
    | ok b => exact hk a b (h a b rfl rfl)

theorem Both.map {r : Except ε α} {r' : Except ε β} {f : α → γ} {g : β → δ} (h : Both P r r')
    (hf : ∀ a b, P a b → Q (f a) (g b)) : Both Q (r.map f) (r'.map g) := by
  cases r with
  | error => exact .error_left _ _
  | ok a =>
    cases r' with
    | error => exact .error_right _ _
    | ok b => exact .ok (hf a b (h a b rfl rfl))

theorem Both.ite {p : Prop} [Decidable p] {r s : Except ε α} {r' s' : Except ε β}
    (h : p → Both P r r') (h' : ¬p → Both P s s') :
    Both P (if p then r else s) (if p then r' else s') := by
  split
  next hp => exact h hp
  next hp => exact h' hp

theorem Both.mono {R : α → β → Prop} {r : Except ε α} {r' : Except ε β} (h : Both P r r')
    (hP : ∀ a b, P a b → R a b) : Both R r r' := fun a b ha hb => hP a b (h a b ha hb)

end

/-- The cursor stands at no blank. -/
def Cursor.AtText (c : Cursor) : Prop :=
  ∀ x ∈ c.rest.head?, isSpace x = false ∧ isBreak x = false

namespace Cursor

variable {c d : Cursor}

theorem atText_of {x : Char} {rest : List Char} (hrest : c.rest = x :: rest)
    (hspace : isSpace x = false) (hbreak : isBreak x = false) : c.AtText := by
  intro y hy
  rw [hrest] at hy
  exact Option.some.inj hy ▸ ⟨hspace, hbreak⟩

theorem atText_iff : c.AtText ↔ (c.peek?.any fun x => isSpace x || isBreak x) = false := by
  unfold AtText peek?
  cases c.rest <;> simp

theorem atText_or_blank (c : Cursor) :
    c.AtText ∨ ∃ x rest, c.rest = x :: rest ∧ (isSpace x = true ∨ isBreak x = true) := by
  by_cases hblank : (c.peek?.any fun x => isSpace x || isBreak x) = true
  · obtain ⟨x, hx, hblank⟩ := (Option.any_eq_true _ _).1 hblank
    obtain ⟨rest, hrest⟩ := List.head?_eq_some_iff.1 hx
    exact .inr ⟨x, rest, hrest, Bool.or_eq_true _ _ ▸ hblank⟩
  · exact .inl (atText_iff.2 (Bool.eq_false_iff.2 hblank))

theorem not_atText_of_any (h : (c.peek?.any fun x => isSpace x || isBreak x) = true) :
    ¬ c.AtText := by
  rw [atText_iff, h]
  exact Bool.noConfusion

theorem Advances.length_lt (h : c.Advances d) (hc : ¬ c.AtText) (hd : d.AtText) :
    d.rest.length < c.rest.length := by
  refine h.length_lt_of_ne fun hrest => hc ?_
  rwa [AtText, hrest] at hd

/-- Before the colon in front of a decimal in quotes, both texts come to a blank or none does. -/
theorem Paired.any_blank {p : Phase} {c c' : Cursor} (h : Paired p c c') (hp : p.near = true) :
    (c.peek?.any fun x => isSpace x || isBreak x) =
      c'.peek?.any fun x => isSpace x || isBreak x := by
  refine h.peek_eq (f := fun x? => x?.any fun x => isSpace x || isBreak x) (fun x y hx hy => ?_)
    fun x hgap => ?_
  · simp only [Option.any_some, hx, hy, Bool.or_true]
  · rw [hgap] at hp
    cases hp

end Cursor

namespace Gap

variable {p : Phase} {c c' : Cursor} {indent? : Option Nat} {fuel fuel' : Nat} {gap : Gap}

theorem read_of_text (h : c.AtText) : read indent? (fuel + 1) gap c = .ok (gap, c) := by
  unfold AtText at h
  unfold read peek?
  cases hrest : c.rest with
  | nil => rfl
  | cons x rest =>
    obtain ⟨hspace, hbreak⟩ := h x (by rw [hrest]; rfl)
    simp [hspace, hbreak]

theorem read_of_space {x : Char} {rest : List Char} (h : c.rest = x :: rest)
    (hx : isSpace x = true) :
    read indent? (fuel + 1) gap c =
      if gap.broken then
        if x = '\t' && (indent?.any fun indent => c.column < indent) then .error .tabInIndentation
        else read indent? fuel gap (c.skip 1)
      else read indent? fuel { gap with spaces := x :: gap.spaces } (c.skip 1) := by
  rw [read]
  simp [peek?, h, hx]

theorem read_of_break {text rest : List Char} (h : BreakAt c.rest text rest) :
    read indent? (fuel + 1) gap c =
      read indent? fuel
        (if gap.broken then { gap with moreBreaks := gap.moreBreaks ++ text }
          else ⟨[], text, [], true⟩) c.readBreak.2 := by
  obtain ⟨x, tail, hrest, hx⟩ := h.head
  have hspace : isSpace x = false := by
    cases hspace : isSpace x with
    | false => rfl
    | true => rw [isBreak_of_isSpace hspace] at hx; cases hx
  obtain ⟨htext, -⟩ := readBreak_spec h
  rw [read]
  simp only [peek?, hrest, List.head?_cons, hspace, Bool.false_eq_true, if_false, hx, if_true, htext]
  split <;> rfl

/-- What two gaps that are read together tell. -/
structure Aligned (p : Phase) (c c' : Cursor) (r r' : Gap × Cursor) : Prop where
  gap : r.1 = r'.1
  paired : ∃ q, Paired q r.2 r'.2 ∧ (p.near = true → q.near = true)
  together : Together c c' r.2 r'.2
  atText : r.2.AtText
  atText' : r'.2.AtText

theorem Aligned.after {q : Phase} {d d' : Cursor} {r r' : Gap × Cursor}
    (htogether : Together c c' d d') (hnear : p.near = true → q.near = true)
    (h : Aligned q d d' r r') : Aligned p c c' r r' := by
  obtain ⟨hgap, ⟨q', hq', hnear'⟩, hmoved, htext, htext'⟩ := h
  exact ⟨hgap, ⟨q', hq', fun hp => hnear' (hnear hp)⟩, htogether.trans hmoved, htext, htext'⟩

theorem read_aligned_of_text (h : Paired p c c') (hc : c.AtText) (hc' : c'.AtText) :
    Both (Aligned p c c') (read indent? (fuel + 1) gap c) (read indent? (fuel' + 1) gap c') := by
  rw [read_of_text hc, read_of_text hc']
  exact .ok ⟨rfl, ⟨p, h, id⟩, .refl c c', hc, hc'⟩

/-- A gap is the same in aligned texts. -/
theorem read_aligned (h : Paired p c c') (hf : c.rest.length < fuel)
    (hf' : c'.rest.length < fuel') :
    Both (Aligned p c c') (read indent? fuel gap c) (read indent? fuel' gap c') := by
  induction fuel generalizing p c c' gap fuel' with
  | zero => omega
  | succ fuel ih =>
    obtain ⟨fuel', rfl⟩ : ∃ n, fuel' = n + 1 := ⟨fuel' - 1, by omega⟩
    cases h.heads with
    | ends hrest hrest' =>
      exact read_aligned_of_text h (by rw [AtText, hrest]; exact nofun)
        (by rw [AtText, hrest']; exact nofun)
    | @char x rest rest' q hrest hrest' hx hq hpaired htogether =>
      cases hspace : isSpace x with
      | false =>
        exact read_aligned_of_text h (atText_of hrest hspace hx) (atText_of hrest' hspace hx)
      | true =>
        have hcolon : x ≠ ':' := fun heq => by rw [heq] at hspace; cases hspace
        have hlength := length_skip_lt hrest Nat.one_pos
        have hlength' := length_skip_lt hrest' Nat.one_pos
        have hnext : ∀ gap, Both (Aligned p c c') (read indent? fuel gap (c.skip 1))
            (read indent? fuel' gap (c'.skip 1)) := by
          intro gap
          refine (ih hpaired (by omega) (by omega)).mono fun _ _ => .after htogether fun hp => ?_
          exact hq.near hp hcolon
        rw [read_of_space hrest hspace, read_of_space hrest' hspace, h.column]
        split
        · split
          · exact .error_left _ _
          · exact hnext gap
        · exact hnext _
    | @«break» text rest rest' q hb hb' hq hpaired htogether =>
      obtain ⟨-, hrest, -⟩ := readBreak_spec hb
      obtain ⟨-, hrest', -⟩ := readBreak_spec hb'
      have hlength := hb.length_lt
      have hlength' := hb'.length_lt
      rw [← hrest] at hlength
      rw [← hrest'] at hlength'
      rw [read_of_break hb, read_of_break hb']
      exact (ih hpaired (by omega) (by omega)).mono fun _ _ => .after htogether hq.near
    | seam hp hseam =>
      obtain ⟨digit, rest, rest', heq, heq', hdigit⟩ := hseam.heads
      have hspace := not_isSpace_of_isDigit hdigit
      exact read_aligned_of_text h (atText_of heq hspace (not_isBreak_of_isDigit hdigit))
        (atText_of heq' (by decide) (by decide))

end Gap

/-- What two scalars that are scanned together tell. -/
structure ScannedScalar.Aligned (c c' : Cursor) (r r' : ScannedScalar) : Prop where
  text : r.text = r'.text
  broken : r.broken = r'.broken
  paired : ∃ q, Paired q r.cursor r'.cursor
  together : Together c c' r.cursor r'.cursor

theorem ScannedScalar.Aligned.after {c c' d d' : Cursor} {r r' : ScannedScalar}
    (htogether : Together c c' d d') (h : Aligned d d' r r') : Aligned c c' r r' :=
  ⟨h.text, h.broken, h.paired, htogether.trans h.together⟩

/-- What two scalars tell that meet a decimal which one of the texts has in quotes. -/
structure ScannedScalar.Parted (c c' : Cursor) (r r' : ScannedScalar) : Prop where
  apart : Node.TextsApart r.text r'.text
  left : c.Sealed r.cursor
  right : c'.Sealed r'.cursor

/-- What two scalars tell. -/
def ScannedScalar.Outcome (c c' : Cursor) (r r' : ScannedScalar) : Prop :=
  Aligned c c' r r' ∨ Parted c c' r r'

theorem ScannedScalar.Outcome.after {c c' d d' : Cursor} {r r' : ScannedScalar}
    (htogether : Together c c' d d') (h : Outcome d d' r r') : Outcome c c' r r' := by
  rcases h with h | h
  · exact .inl (h.after htogether)
  · exact .inr ⟨h.apart, h.left.of_advances htogether.left, h.right.of_advances htogether.right⟩

/-- Two texts that have the same beginning and then a decimal or the quote in front of it. -/
theorem textsApart_of_decimal {seen decimal text text' : List Char}
    (hdecimal : isDecimal decimal = true) (h : seen ++ decimal <+: text)
    (h' : text' = seen ∨ seen ++ ['"'] <+: text') : Node.TextsApart text text' := by
  obtain ⟨more, rfl⟩ := h
  obtain ⟨digit, rest, hcons, hdigit⟩ := exists_digit_of_isDecimal hdecimal
  have hcomma := comma_mem_of_isDecimal hdecimal
  refine ⟨?_, .inl (by simp [hcomma])⟩
  rw [hcons, List.append_assoc]
  rcases h' with rfl | ⟨more', rfl⟩
  · intro heq
    have hlength := congrArg List.length heq
    simp at hlength
  · intro heq
    rw [List.append_assoc] at heq
    obtain rfl := (List.cons.inj (List.append_cancel_left heq)).1
    cases hdigit

namespace Plain

variable {p : Phase} {c c' : Cursor} {flow : Bool} {fuel fuel' indent : Nat}

/-- What two runs of characters that belong to unquoted scalars tell. -/
structure RunAligned (c c' : Cursor) (count count' : Nat) : Prop where
  same : count = count'
  taken : c.rest.take count = c'.rest.take count
  paired : ∃ q, Paired q (c.skip count) (c'.skip count) ∧ q.near = true
  together : Together c c' (c.skip count) (c'.skip count)

theorem RunAligned.zero (h : Paired p c c') (hp : p.near = true) : RunAligned c c' 0 0 := by
  refine ⟨rfl, rfl, ⟨p, ?_, hp⟩, ?_⟩
  · rwa [skip_zero, skip_zero]
  · rw [skip_zero, skip_zero]
    exact .refl c c'

theorem RunAligned.succ {x : Char} {rest rest' : List Char} {count count' : Nat}
    (hrest : c.rest = x :: rest) (hrest' : c'.rest = x :: rest')
    (h : RunAligned (c.skip 1) (c'.skip 1) count count')
    (htogether : Together c c' (c.skip 1) (c'.skip 1)) :
    RunAligned c c' (count + 1) (count' + 1) := by
  obtain ⟨rfl, htaken, ⟨q, hpaired, hq⟩, hskip⟩ := h
  rw [skip_skip, skip_skip, Nat.add_comm] at hpaired hskip
  refine ⟨rfl, ?_, ⟨q, hpaired, hq⟩, htogether.trans hskip⟩
  rw [skip_rest hrest, skip_rest hrest'] at htaken
  rw [hrest, hrest', List.take_succ_cons, List.take_succ_cons, htaken]

theorem runLength_of_break {text rest : List Char} (h : BreakAt c.rest text rest) :
    runLength flow c.rest = .ok 0 := by
  obtain ⟨x, tail, hrest, hx⟩ := h.head
  rw [hrest, runLength, if_pos (by simp [hx])]

theorem endsColon_of_isBreak {x : Char} (h : isBreak x = true) :
    (isFlowIndicator x || x = '?') = false :=
  @eq_false_of_isBreak (fun y => isFlowIndicator y || y = '?') (by decide) x h

theorem endsColon_of_isDigit {x : Char} (h : x.isDigit = true) :
    (isFlowIndicator x || x = '?') = false := by
  rw [Bool.eq_false_iff]
  intro hx
  simp only [isFlowIndicator, Bool.or_eq_true, decide_eq_true_eq] at hx
  rcases hx with ((((rfl | rfl) | rfl) | rfl) | rfl) | rfl <;> revert h <;> decide

/-- A run of characters ends before the colon in front of a decimal in quotes. -/
theorem runLength_aligned (h : Paired p c c') (hp : p.near = true) :
    Both (RunAligned c c') (runLength flow c.rest) (runLength flow c'.rest) := by
  generalize hn : c.rest.length = n
  induction n generalizing p c c' with
  | zero =>
    obtain ⟨hnil, hnil'⟩ := h.rest_eq_nil (List.eq_nil_of_length_eq_zero hn)
    rw [hnil, hnil']
    exact .ok (.zero h hp)
  | succ n ih =>
    cases h.heads with
    | ends hrest => rw [hrest] at hn; cases hn
    | @char x rest rest' q hrest hrest' hx hq hpaired htogether =>
      have hany : rest.head?.any (fun y => isFlowIndicator y || y = '?') =
          rest'.head?.any fun y => isFlowIndicator y || y = '?' := by
        have heq := hpaired.peek_eq (f := fun y? => y?.any fun y => isFlowIndicator y || y = '?')
          (fun y z hy hz => ?_) fun y _ hy => ?_
        · rwa [peek?, peek?, skip_rest hrest, skip_rest hrest'] at heq
        · simp only [Option.any_some, endsColon_of_isBreak hy, endsColon_of_isBreak hz]
        · simp only [Option.any_some, endsColon_of_isDigit hy]
          decide
      have hall : rest.head?.all (fun y => isSpace y || isBreak y) =
          rest'.head?.all fun y => isSpace y || isBreak y := by
        have heq := hpaired.blankAt_zero_eq
        rwa [blankAt_zero, blankAt_zero, peek?, peek?, skip_rest hrest, skip_rest hrest'] at heq
      rw [hrest, hrest', runLength, runLength, hany, hall]
      split
      · exact .ok (.zero h hp)
      split
      · exact .error_left _ _
      split
      · exact .ok (.zero h hp)
      next hcolon =>
      split
      · exact .ok (.zero h hp)
      · -- Only a blank behind the colon would lead away from the text, and the run ends before one.
        have hnear : q.near = true := by
          rcases hq with ⟨-, hq | ⟨rfl, rfl⟩, -⟩ | ⟨hfalse, -⟩
          · exact hq
          · have hblank := hpaired.blankAt_zero_of_blank
            rw [hpaired.blankAt_zero_eq, blankAt_zero, peek?, skip_rest hrest'] at hblank
            exact absurd (by simpa using hblank) hcolon
          · rw [hp] at hfalse
            cases hfalse
        have hlength : (c.skip 1).rest.length = n := by
          rw [hrest, List.length_cons] at hn
          rw [skip_rest hrest]
          omega
        have hnext := ih hpaired hnear hlength
        rw [skip_rest hrest, skip_rest hrest'] at hnext
        exact hnext.map fun _ _ h => h.succ hrest hrest' htogether
    | «break» hb hb' =>
      rw [runLength_of_break hb, runLength_of_break hb']
      exact .ok (.zero h hp)
    | seam hgap => rw [hgap] at hp; cases hp

/-- What follows a run of characters, if the scalar goes on in the same way behind a gap. -/
theorem afterRun_aligned {before : List Char} {gap : Gap} (h : Paired p c c') (hp : p.near = true)
    (hread : ∀ {q : Phase} {d d' : Cursor} (gap : Gap), Paired q d d' → q.near = true →
      d.rest.length < c.rest.length → d'.rest.length < c'.rest.length →
        Both (ScannedScalar.Aligned d d') (readFrom flow indent fuel before gap d)
          (readFrom flow indent fuel' before gap d')) :
    Both (ScannedScalar.Aligned c c') (afterRun flow indent fuel before gap c)
      (afterRun flow indent fuel' before gap c') := by
  have hblank := h.any_blank hp
  unfold afterRun
  rw [← hblank]
  split
  next hany =>
    refine (Gap.read_aligned h h.valid.length_lt_rounds h.valid'.length_lt_rounds).bind ?_
    rintro ⟨gap, d⟩ ⟨gap', d'⟩ ⟨hgaps, ⟨q, hq, hnear⟩, hmoved, hat, hat'⟩
    obtain rfl : gap = gap' := hgaps
    -- A gap begins at a blank or a break and ends at text, so there is less left to read.
    have hshorter := hmoved.left.length_lt (not_atText_of_any hany) hat
    have hshorter' := hmoved.right.length_lt (not_atText_of_any (hblank.symm.trans hany)) hat'
    dsimp only at hq ⊢
    rw [hq.column]
    split
    · exact .ok ⟨rfl, rfl, ⟨q, hq⟩, hmoved⟩
    · exact (hread gap hq (hnear hp) hshorter hshorter').mono fun _ _ => .after hmoved
  next => exact .ok ⟨rfl, rfl, ⟨p, h⟩, .refl c c'⟩

theorem readFrom_aligned {before : List Char} {gap : Gap} (h : Paired p c c') (hp : p.near = true)
    (hf : c.rest.length < fuel) (hf' : c'.rest.length < fuel') :
    Both (ScannedScalar.Aligned c c') (readFrom flow indent fuel before gap c)
      (readFrom flow indent fuel' before gap c') := by
  induction fuel generalizing p c c' before gap fuel' with
  | zero => omega
  | succ fuel ih =>
    obtain ⟨fuel', rfl⟩ : ∃ n, fuel' = n + 1 := ⟨fuel' - 1, by omega⟩
    have hgap : p ≠ .gap := fun heq => by rw [heq] at hp; cases hp
    rw [readFrom_succ, readFrom_succ,
      h.atBoundary_eq (by decide : isBreak '-' = false) (by decide) (by decide),
      h.atBoundary_eq (by decide : isBreak '.' = false) (by decide) (by decide),
      h.sees_eq (by decide : isBreak '#' = false) fun heq => absurd heq hgap]
    split
    · exact .ok ⟨rfl, rfl, ⟨p, h⟩, .refl c c'⟩
    refine (runLength_aligned h hp).bind ?_
    rintro count _ ⟨rfl, htaken, ⟨q, hpaired, hq⟩, htogether⟩
    have hlength := htogether.left.length_le
    have hlength' := htogether.right.length_le
    have hafter : ∀ before gap, Both (ScannedScalar.Aligned c c')
        (afterRun flow indent fuel before gap (c.skip count))
        (afterRun flow indent fuel' before gap (c'.skip count)) := by
      intro before gap
      refine (afterRun_aligned hpaired hq fun gap hr hnear hshorter hshorter' => ?_).mono
        fun _ _ => .after htogether
      exact ih hr hnear (by omega) (by omega)
    split
    next hzero =>
      rw [hzero, skip_zero, skip_zero] at hafter
      exact hafter before gap
    next =>
      rw [htaken]
      exact hafter _ _

theorem read_aligned (h : Paired p c c') (hp : p.near = true) :
    Both (ScannedScalar.Aligned c c') (read flow indent c) (read flow indent c') :=
  readFrom_aligned h hp h.valid.length_lt_rounds h.valid'.length_lt_rounds

end Plain

end RamlDoc.Yaml
