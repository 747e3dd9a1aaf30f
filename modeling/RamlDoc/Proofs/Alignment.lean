import RamlDoc.Proofs.Cursors
import RamlDoc.Proofs.NodeStyles

/-!
# Aligned texts

The text pass puts decimals in quotes and turns the line ends into line feeds. Two texts are aligned
if the second comes from the first in this way: they differ in line ends, and in decimals that stand
behind a colon and blanks at the end of a line without a number sign, which the second has in quotes
(`Aligned`). Two cursors that are paired on aligned texts see the same characters up to such a
decimal (`Paired.heads`), and move on together.
-/

namespace RamlDoc.Yaml

/-- Where a place in aligned texts stands with respect to the next decimal in quotes. -/
inductive Phase where
  /-- At the start of a line. -/
  | line
  /-- In a line, with no such decimal ahead. -/
  | text
  /-- In a line, before the colon in front of the decimal. -/
  | front
  /-- At the first blank behind the colon. -/
  | blank
  /-- Behind the colon and a blank. -/
  | gap
deriving DecidableEq

/-- Whether the colon in front of a decimal in quotes is not yet passed. -/
def Phase.near : Phase → Bool
  | .line | .text | .front => true
  | .blank | .gap => false

/-- A text is at the end of a line. -/
def AtLineEnd (cs : List Char) : Prop := ∀ x ∈ cs.head?, isBreak x = true

/-- The second text comes from the first by putting decimals in quotes and dropping returns. -/
inductive Aligned : Phase → List Char → List Char → Prop
  | nil : Aligned .text [] []
  | char {x : Char} {cs ds : List Char} (hx : x ≠ '\n') (hreturn : x = '\r' → ds.head? ≠ some '\n')
    (h : Aligned .text cs ds) : Aligned .text (x :: cs) (x :: ds)
  | feed {cs ds : List Char} (h : Aligned .line cs ds) : Aligned .text ('\n' :: cs) ('\n' :: ds)
  | returned {cs ds : List Char} (h : Aligned .line cs ds) :
    Aligned .text ('\r' :: '\n' :: cs) ('\n' :: ds)
  | kept {cs ds : List Char} (h : Aligned .line cs ds) :
    Aligned .text ('\r' :: '\n' :: cs) ('\r' :: '\n' :: ds)
  | unquoted {cs ds : List Char} (h : Aligned .text cs ds) : Aligned .line cs ds
  | quoted {cs ds : List Char} (h : Aligned .front cs ds) : Aligned .line cs ds
  | front {x : Char} {cs ds : List Char} (hsign : x ≠ '#') (hx : x ≠ '\n')
    (h : Aligned .front cs ds) : Aligned .front (x :: cs) (x :: ds)
  | colon {cs ds : List Char} (h : Aligned .blank cs ds) : Aligned .front (':' :: cs) (':' :: ds)
  | blank {x : Char} {cs ds : List Char} (hx : isSpace x = true ∨ x = '\r')
    (h : Aligned .gap cs ds) : Aligned .blank (x :: cs) (x :: ds)
  | gap {cs ds : List Char} (h : Aligned .blank cs ds) : Aligned .gap cs ds
  | seam {decimal blanks cs ds : List Char} (hdecimal : isDecimal decimal = true)
    (hblanks : ∀ x ∈ blanks, isSpace x = true ∨ isBreak x = true) (hend : AtLineEnd ds)
    (h : Aligned .text cs ds) :
    Aligned .gap (decimal ++ (blanks ++ cs)) ('"' :: (decimal ++ '"' :: ds))

/-- Two texts begin with a decimal that only the second has in quotes. -/
inductive Seam : List Char → List Char → Prop
  | mk {decimal blanks cs ds : List Char} (hdecimal : isDecimal decimal = true)
    (hblanks : ∀ x ∈ blanks, isSpace x = true ∨ isBreak x = true) (hend : AtLineEnd cs)
    (hend' : AtLineEnd ds) (h : Aligned .text cs ds) :
    Seam (decimal ++ (blanks ++ cs)) ('"' :: (decimal ++ '"' :: ds))

/-- How the phase changes where a character is passed. -/
def Phase.Passes (p : Phase) (x : Char) (q : Phase) : Prop :=
  (p.near = true ∧ (q.near = true ∨ (x = ':' ∧ q = .blank)) ∧ (p = .text → q = .text)) ∨
    (p.near = false ∧ isSpace x = true ∧ q = .gap)

theorem Phase.Passes.near {p q : Phase} {x : Char} (h : p.Passes x q) (hp : p.near = true)
    (hx : x ≠ ':') : q.near = true := by
  rcases h with ⟨-, hq | ⟨heq, -⟩, -⟩ | ⟨hp', -⟩
  · exact hq
  · exact absurd heq hx
  · rw [hp] at hp'
    cases hp'

/-- A run of characters that a test holds of does not reach the next decimal in quotes. -/
def Phase.Clear (p : Phase) (f : Char → Bool) : Prop :=
  p = .text ∨ (p.near = true ∧ f ':' = false) ∨
    ((∀ x, x.isDigit = true → f x = false) ∧ f '"' = false)

/-- How the phase changes where a line break is passed. -/
def Phase.Crosses (p q : Phase) : Prop :=
  (p.near = true ∧ q.near = true) ∨ (p.near = false ∧ q = .gap)

theorem Phase.Crosses.near {p q : Phase} (h : p.Crosses q) (hp : p.near = true) :
    q.near = true := by
  rcases h with ⟨-, hq⟩ | ⟨hfalse, -⟩
  · exact hq
  · rw [hp] at hfalse
    cases hfalse

/-- What aligned texts begin with. -/
inductive Heads (p : Phase) : List Char → List Char → Prop
  | ends : Heads p [] []
  | char {x : Char} {cs ds : List Char} {q : Phase} (hx : isBreak x = false) (hq : p.Passes x q)
    (h : Aligned q cs ds) : Heads p (x :: cs) (x :: ds)
  | break {cs ds text rest rest' : List Char} {q : Phase} (hcs : BreakAt cs text rest)
    (hds : BreakAt ds text rest') (hq : p.Crosses q) (h : Aligned q rest rest') : Heads p cs ds
  | seam {cs ds : List Char} (hp : p = .gap) (h : Seam cs ds) : Heads p cs ds

section

variable {p q : Phase} {cs ds : List Char}

theorem Heads.of_near (hp : p.near = true) (h : Heads p cs ds) : Heads .line cs ds := by
  cases h with
  | ends => exact .ends
  | char hx hr h =>
    rcases hr with ⟨-, hr, -⟩ | ⟨hfalse, -⟩
    · exact .char hx (.inl ⟨rfl, hr, nofun⟩) h
    · rw [hp] at hfalse
      cases hfalse
  | «break» hcs hds hr h =>
    rcases hr with ⟨-, hr⟩ | ⟨hfalse, -⟩
    · exact .break hcs hds (.inl ⟨rfl, hr⟩) h
    · rw [hp] at hfalse
      cases hfalse
  | seam hgap =>
    subst hgap
    cases hp

theorem Heads.of_blank (h : Heads .blank cs ds) : Heads .gap cs ds := by
  cases h with
  | ends => exact .ends
  | char hx hr h =>
    rcases hr with ⟨hfalse, -⟩ | ⟨-, hr⟩
    · cases hfalse
    · exact .char hx (.inr ⟨rfl, hr⟩) h
  | «break» hcs hds hr h =>
    rcases hr with ⟨hfalse, -⟩ | ⟨-, hr⟩
    · cases hfalse
    · exact .break hcs hds (.inr ⟨rfl, hr⟩) h
  | seam hgap => cases hgap

theorem Aligned.head_ne_feed (h : Aligned .text cs ds) (hds : ds.head? ≠ some '\n') :
    cs.head? ≠ some '\n' := by
  cases h with
  | nil => exact nofun
  | char hx => exact fun heq => hx (Option.some.inj heq)
  | feed => exact absurd rfl hds
  | returned => exact absurd rfl hds
  | kept => exact nofun

theorem Aligned.atLineEnd (h : Aligned .text cs ds) (hds : AtLineEnd ds) : AtLineEnd cs := by
  cases h with
  | nil => exact hds
  | char => exact hds
  | feed => exact hds
  | returned => exact fun x hx => Option.some.inj hx ▸ by decide
  | kept => exact hds

theorem exists_digit_of_isDecimal {decimal : List Char} (h : isDecimal decimal = true) :
    ∃ digit rest, decimal = digit :: rest ∧ digit.isDigit = true := by
  cases decimal with
  | nil => cases h
  | cons digit rest =>
    refine ⟨digit, rest, rfl, ?_⟩
    cases hdigit : digit.isDigit with
    | true => rfl
    | false =>
      unfold isDecimal at h
      rw [List.takeWhile_cons_of_neg (by simp [hdigit])] at h
      split at h
      · cases h
      · cases h

theorem digit_or_comma_of_isDecimal {decimal : List Char} (h : isDecimal decimal = true) {x : Char}
    (hx : x ∈ decimal) : x.isDigit = true ∨ x = ',' := by
  rw [← List.takeWhile_append_dropWhile (p := Char.isDigit) (l := decimal)] at hx
  rcases List.mem_append.1 hx with hx | hx
  · exact .inl (List.all_eq_true.1 List.all_takeWhile x hx)
  · unfold isDecimal at h
    split at h
    next rest heq =>
      rw [heq] at hx
      rw [Bool.and_eq_true] at h
      rcases List.mem_cons.1 hx with rfl | hx
      · exact .inr rfl
      · exact .inl (List.all_eq_true.1 h.2 x hx)
    next => cases h

theorem Aligned.head_ne_feed_of_gap (h : Aligned .gap cs ds) :
    cs.head? ≠ some '\n' ∧ ds.head? ≠ some '\n' := by
  cases h with
  | gap h =>
    cases h with
    | blank hx =>
      constructor <;> rintro heq <;> obtain rfl := Option.some.inj heq <;> revert hx <;> decide
  | seam hdecimal =>
    obtain ⟨digit, rest, rfl, hdigit⟩ := exists_digit_of_isDecimal hdecimal
    refine ⟨fun heq => ?_, nofun⟩
    obtain rfl := Option.some.inj heq
    cases hdigit

/-- What the texts begin with, by the phase. -/
theorem Aligned.heads (h : Aligned p cs ds) : Heads p cs ds := by
  induction h with
  | nil => exact .ends
  | @char x cs ds hx hreturn h ih =>
    cases hbreak : isBreak x with
    | false => exact .char hbreak (.inl ⟨rfl, .inl rfl, fun _ => rfl⟩) h
    | true =>
      refine .break (.one hbreak fun heq => ?_) (.one hbreak hreturn) (.inl ⟨rfl, rfl⟩) h
      exact h.head_ne_feed (hreturn heq)
  | feed h ih =>
    exact .break (.one (by decide) nofun) (.one (by decide) nofun) (.inl ⟨rfl, rfl⟩) h
  | returned h ih => exact .break .crlf (.one (by decide) nofun) (.inl ⟨rfl, rfl⟩) h
  | kept h ih => exact .break .crlf .crlf (.inl ⟨rfl, rfl⟩) h
  | unquoted h ih => exact ih.of_near rfl
  | quoted h ih => exact ih.of_near rfl
  | @front x cs ds hsign hx h ih =>
    cases hbreak : isBreak x with
    | false => exact .char hbreak (.inl ⟨rfl, .inl rfl, nofun⟩) h
    | true =>
      have hnext : cs.head? ≠ some '\n' ∧ ds.head? ≠ some '\n' := by
        cases h with
        | front hsign hx => exact ⟨fun heq => hx (Option.some.inj heq), fun heq =>
            hx (Option.some.inj heq)⟩
        | colon => exact ⟨nofun, nofun⟩
      exact .break (.one hbreak fun _ => hnext.1) (.one hbreak fun _ => hnext.2) (.inl ⟨rfl, rfl⟩) h
  | colon h ih => exact .char (by decide) (.inl ⟨rfl, .inr ⟨rfl, rfl⟩, nofun⟩) h
  | @blank x cs ds hx h ih =>
    rcases hx with hx | rfl
    · exact .char (isBreak_of_isSpace hx) (.inr ⟨rfl, hx, rfl⟩) h
    · have hnext := h.head_ne_feed_of_gap
      exact .break (.one (by decide) fun _ => hnext.1) (.one (by decide) fun _ => hnext.2)
        (.inr ⟨rfl, rfl⟩) h
  | gap h ih => exact ih.of_blank
  | seam hdecimal hblanks hend h ih => exact .seam rfl (.mk hdecimal hblanks (h.atLineEnd hend) hend h)

/-- There is no decimal in quotes behind a number sign. -/
theorem Aligned.text_of_sign (h : Aligned p cs ds) (hsign : cs.head? = some '#') :
    Aligned .text cs ds := by
  induction h with
  | nil => cases hsign
  | char hx hreturn h => exact .char hx hreturn h
  | feed | returned | kept => cases hsign
  | unquoted h => exact h
  | quoted h ih => exact ih hsign
  | front hne => exact absurd (Option.some.inj hsign) hne
  | colon => cases hsign
  | blank hx =>
    obtain rfl := Option.some.inj hsign
    exact absurd hx (by decide)
  | gap h ih => exact ih hsign
  | seam hdecimal =>
    obtain ⟨digit, rest, rfl, hdigit⟩ := exists_digit_of_isDecimal hdecimal
    obtain rfl := Option.some.inj hsign
    cases hdigit

theorem Seam.heads {cs ds : List Char} (h : Seam cs ds) :
    ∃ digit rest rest', cs = digit :: rest ∧ ds = '"' :: rest' ∧ digit.isDigit = true := by
  cases h with
  | mk hdecimal =>
    obtain ⟨digit, rest, rfl, hdigit⟩ := exists_digit_of_isDecimal hdecimal
    exact ⟨digit, _, _, rfl, rfl, hdigit⟩

theorem mem_of_mem_takeWhile {front cs : List Char} (h : AtLineEnd cs) {x : Char}
    (hx : x ∈ (front ++ cs).takeWhile fun x => !isBreak x) : x ∈ front := by
  induction front with
  | nil =>
    cases cs with
    | nil => cases hx
    | cons y cs =>
      rw [List.nil_append, List.takeWhile_cons_of_neg (by simp [h y rfl])] at hx
      cases hx
  | cons y front ih =>
    rw [List.cons_append, List.takeWhile_cons] at hx
    split at hx
    · rcases List.mem_cons.1 hx with rfl | hx
      · exact List.mem_cons_self
      · exact List.mem_cons_of_mem y (ih hx)
    · cases hx

theorem ne_colon_of_isDecimal {decimal : List Char} (h : isDecimal decimal = true) {x : Char}
    (hx : x ∈ decimal) : x ≠ ':' := by
  rintro rfl
  rcases digit_or_comma_of_isDecimal h hx with hx | hx <;> cases hx

end

namespace Cursor

/-- Two cursors stand at the same column of aligned texts. -/
structure Paired (p : Phase) (c c' : Cursor) : Prop where
  aligned : Aligned p c.rest c'.rest
  column : c.column = c'.column
  valid : c.Valid
  valid' : c'.Valid

/-- Two cursors move on together: either both pass a line break, or both stay on their lines and
pass the same number of bytes. -/
structure Together (c c' d d' : Cursor) : Prop where
  left : c.Advances d
  right : c'.Advances d'
  moved : (d.line = c.line ∧ d'.line = c'.line ∧ d.offset + c'.offset = d'.offset + c.offset) ∨
    (c.line < d.line ∧ c'.line < d'.line)

/-- What two paired cursors see. -/
inductive PairedHeads (p : Phase) (c c' : Cursor) : Prop
  | ends (h : c.rest = []) (h' : c'.rest = [])
  | char {x : Char} {rest rest' : List Char} {q : Phase} (h : c.rest = x :: rest)
    (h' : c'.rest = x :: rest') (hx : isBreak x = false) (hq : p.Passes x q)
    (hpaired : Paired q (c.skip 1) (c'.skip 1)) (htogether : Together c c' (c.skip 1) (c'.skip 1))
  | break {text rest rest' : List Char} {q : Phase} (h : BreakAt c.rest text rest)
    (h' : BreakAt c'.rest text rest') (hq : p.Crosses q)
    (hpaired : Paired q c.readBreak.2 c'.readBreak.2)
    (htogether : Together c c' c.readBreak.2 c'.readBreak.2)
  | seam (hp : p = .gap) (h : Seam c.rest c'.rest)

section

variable {p q : Phase} {c c' d d' e e' : Cursor}

/-- No colon follows a decimal that is put in quotes. -/
theorem colonFree_of_seam (h : Seam c.rest c'.rest) : c.ColonFree ∧ c'.ColonFree := by
  unfold ColonFree Cursor.takeWhile
  generalize c.rest = cs at h
  generalize c'.rest = ds at h
  cases h with
  | @mk decimal blanks cs ds hdecimal hblanks hend hend' =>
    constructor
    · intro x hx
      rw [← List.append_assoc] at hx
      rcases List.mem_append.1 (mem_of_mem_takeWhile hend hx) with hx | hx
      · exact ne_colon_of_isDecimal hdecimal hx
      · rintro rfl
        rcases hblanks _ hx with hx | hx <;> cases hx
    · intro x hx
      have heq : '"' :: (decimal ++ '"' :: ds) = ('"' :: (decimal ++ ['"'])) ++ ds := by simp
      rw [heq] at hx
      rcases List.mem_cons.1 (mem_of_mem_takeWhile hend' hx) with rfl | hx
      · decide
      · rcases List.mem_append.1 hx with hx | hx
        · exact ne_colon_of_isDecimal hdecimal hx
        · rw [List.mem_singleton.1 hx]
          decide

theorem Together.refl (c c' : Cursor) : Together c c' c c' :=
  ⟨.refl c, .refl c', .inl ⟨rfl, rfl, Nat.add_comm _ _⟩⟩

theorem Together.trans (h : Together c c' d d') (h' : Together d d' e e') : Together c c' e e' := by
  refine ⟨h.left.trans h'.left, h.right.trans h'.right, ?_⟩
  have hleft := h'.left.line_le
  have hright := h'.right.line_le
  rcases h.moved with ⟨hline, hline', hoffset⟩ | ⟨hline, hline'⟩
  · rcases h'.moved with ⟨_, _, _⟩ | ⟨_, _⟩
    · exact .inl ⟨by omega, by omega, by omega⟩
    · exact .inr ⟨by omega, by omega⟩
  · exact .inr ⟨by omega, by omega⟩

theorem Paired.heads (h : Paired p c c') : PairedHeads p c c' := by
  obtain ⟨haligned, hcolumn, hvalid, hvalid'⟩ := h
  have hheads := haligned.heads
  generalize hcs : c.rest = cs at hheads
  generalize hds : c'.rest = ds at hheads
  cases hheads with
  | ends => exact .ends hcs hds
  | @char x cs ds q hx hq h =>
    have hleft := advances_skip_one hcs hx
    have hright := advances_skip_one hds hx
    refine .char hcs hds hx hq ⟨?_, ?_, hleft.valid hvalid, hright.valid hvalid'⟩
      ⟨hleft, hright, .inl ⟨rfl, rfl, ?_⟩⟩
    · rwa [skip_rest hcs, skip_rest hds]
    · exact congrArg (· + 1) hcolumn
    · simp only [skip, hcs, hds, List.take_succ_cons, List.take_zero]
      omega
  | «break» hbreak hbreak' hq h =>
    rw [← hcs] at hbreak
    rw [← hds] at hbreak'
    obtain ⟨-, hrest, hzero, hline, hleft⟩ := readBreak_spec hbreak
    obtain ⟨-, hrest', hzero', hline', hright⟩ := readBreak_spec hbreak'
    refine .break hbreak hbreak' hq ⟨?_, hzero.trans hzero'.symm, hleft.valid hvalid,
      hright.valid hvalid'⟩ ⟨hleft, hright, .inr ⟨hline, hline'⟩⟩
    rwa [hrest, hrest']
  | seam hp h => exact .seam hp (hcs ▸ hds ▸ h)

/-! ## What paired cursors agree on -/

/-- A test on the next character that does not tell line breaks apart, nor digits from a quote. -/
theorem Paired.peek_eq {α : Type} (h : Paired p c c') {f : Option Char → α}
    (hbreak : ∀ x y, isBreak x = true → isBreak y = true → f (some x) = f (some y))
    (hseam : ∀ x, p = .gap → x.isDigit = true → f (some x) = f (some '"')) :
    f c.peek? = f c'.peek? := by
  unfold peek?
  cases h.heads with
  | ends h h' => rw [h, h']
  | char h h' => rw [h, h']; rfl
  | «break» h h' =>
    obtain ⟨x, tail, heq, hx⟩ := h.head
    obtain ⟨y, tail', heq', hy⟩ := h'.head
    rw [heq, heq']
    exact hbreak x y hx hy
  | seam hp h =>
    obtain ⟨digit, rest, rest', heq, heq', hdigit⟩ := h.heads
    rw [heq, heq']
    exact hseam digit hp hdigit

theorem Paired.any_isBreak (h : Paired p c c') :
    c.peek?.any isBreak = c'.peek?.any isBreak := by
  refine h.peek_eq (f := fun x? => x?.any isBreak) (fun x y hx hy => ?_) fun x _ hx => ?_
  · exact hx.trans hy.symm
  · exact not_isBreak_of_isDigit hx

theorem Paired.any_isSpace (h : Paired p c c') :
    c.peek?.any isSpace = c'.peek?.any isSpace := by
  refine h.peek_eq (f := fun x? => x?.any isSpace) (fun x y hx hy => ?_) fun x _ hx => ?_
  · exact (isSpace_of_isBreak x hx).trans (isSpace_of_isBreak y hy).symm
  · exact not_isSpace_of_isDigit hx

theorem Paired.rest_eq_nil (h : Paired p c c') (hnil : c.rest = []) : c.rest = [] ∧ c'.rest = [] := by
  cases h.heads with
  | ends h h' => exact ⟨h, h'⟩
  | char h => rw [hnil] at h; cases h
  | «break» h => obtain ⟨_, _, heq, -⟩ := h.head; rw [hnil] at heq; cases heq
  | seam hp h => obtain ⟨_, _, _, heq, -⟩ := h.heads; rw [hnil] at heq; cases heq

theorem Paired.isEmpty_eq (h : Paired p c c') : c.rest.isEmpty = c'.rest.isEmpty := by
  cases h.heads with
  | ends hrest hrest' => rw [hrest, hrest']
  | char hrest hrest' => rw [hrest, hrest']; rfl
  | «break» hb hb' =>
    obtain ⟨_, _, hrest, -⟩ := hb.head
    obtain ⟨_, _, hrest', -⟩ := hb'.head
    rw [hrest, hrest']
    rfl
  | seam _ h =>
    obtain ⟨_, _, _, hrest, hrest', -⟩ := h.heads
    rw [hrest, hrest']
    rfl

theorem Paired.atLineEnd_eq (h : Paired p c c') : c.atLineEnd = c'.atLineEnd := by
  have hall : ∀ c : Cursor, c.atLineEnd = c.peek?.all isBreak := by
    intro c
    unfold atLineEnd endOr peek?
    cases c.rest <;> rfl
  rw [hall, hall]
  refine h.peek_eq (f := fun x? => x?.all isBreak) (fun x y hx hy => ?_) fun x _ hx => ?_
  · exact hx.trans hy.symm
  · exact not_isBreak_of_isDigit hx

theorem blankAt_zero (c : Cursor) :
    c.blankAt 0 = c.peek?.all fun x => isSpace x || isBreak x := by
  unfold blankAt endOr peek?
  cases c.rest <;> rfl

theorem blankAt_succ (c : Cursor) (ahead : Nat) : c.blankAt (ahead + 1) = (c.skip 1).blankAt ahead := by
  unfold blankAt endOr skip
  rw [List.getElem?_drop, Nat.add_comm]

theorem Paired.blankAt_zero_eq (h : Paired p c c') : c.blankAt 0 = c'.blankAt 0 := by
  rw [blankAt_zero, blankAt_zero]
  refine h.peek_eq (f := fun x? => x?.all fun x => isSpace x || isBreak x) (fun x y hx hy => ?_)
    fun x _ hx => ?_
  · simp [hx, hy]
  · simp only [Option.all_some, not_isBreak_of_isDigit hx, not_isSpace_of_isDigit hx]
    decide

theorem Paired.blankAt_zero_of_blank (h : Paired .blank c c') : c.blankAt 0 = true := by
  rw [blankAt_zero, peek?]
  have haligned := h.aligned
  generalize c.rest = cs at haligned
  generalize c'.rest = ds at haligned
  cases haligned with
  | blank hx =>
    rcases hx with hx | rfl
    · simp [hx]
    · rfl

theorem Paired.sees_eq (h : Paired p c c') {mark : Char} (hmark : isBreak mark = false)
    (hseam : p = .gap → mark.isDigit = false ∧ mark ≠ '"') : c.sees mark = c'.sees mark := by
  refine h.peek_eq (f := fun x? => decide (x? = some mark)) (fun x y hx hy => ?_) fun x hp hx => ?_
  · have hne : x ≠ mark := fun heq => by rw [heq, hmark] at hx; cases hx
    have hne' : y ≠ mark := fun heq => by rw [heq, hmark] at hy; cases hy
    simp [hne, hne']
  · obtain ⟨hdigit, hquote⟩ := hseam hp
    have hne : x ≠ mark := fun heq => by rw [heq, hdigit] at hx; cases hx
    simp [hne, Ne.symm hquote]

theorem Paired.marks_iff (h : Paired p c c') {mark : Char} (hmark : isBreak mark = false)
    (hdigit : mark.isDigit = false) (hquote : mark ≠ '"') (count : Nat) :
    (c.rest.take count = List.replicate count mark ∧ c.blankAt count = true) ↔
      (c'.rest.take count = List.replicate count mark ∧ c'.blankAt count = true) := by
  induction count generalizing p c c' with
  | zero => rw [h.blankAt_zero_eq]; simp
  | succ count ih =>
    rw [blankAt_succ, blankAt_succ, List.replicate_succ]
    cases h.heads with
    | ends h h' => simp [h, h']
    | @char x rest rest' q h h' hx hq hpaired =>
      have hrest := ih hpaired
      rw [skip_rest h, skip_rest h'] at hrest
      simp only [h, h', List.take_succ_cons, List.cons.injEq, and_assoc, hrest]
    | «break» h h' =>
      obtain ⟨x, tail, heq, hx⟩ := h.head
      obtain ⟨y, tail', heq', hy⟩ := h'.head
      have hne : x ≠ mark := fun heq => by rw [heq, hmark] at hx; cases hx
      have hne' : y ≠ mark := fun heq => by rw [heq, hmark] at hy; cases hy
      simp [heq, heq', hne, hne']
    | seam hp h =>
      obtain ⟨digit, rest, rest', heq, heq', hd⟩ := h.heads
      have hne : digit ≠ mark := fun heq => by rw [heq, hdigit] at hd; cases hd
      simp [heq, heq', hne, Ne.symm hquote]

theorem Paired.atBoundary_eq (h : Paired p c c') {mark : Char} (hmark : isBreak mark = false)
    (hdigit : mark.isDigit = false) (hquote : mark ≠ '"') :
    c.atBoundary mark = c'.atBoundary mark := by
  have hmarks := h.marks_iff hmark hdigit hquote 3
  unfold atBoundary
  rw [Bool.eq_iff_iff]
  simp only [Bool.and_eq_true, decide_eq_true_eq, h.column, and_assoc]
  exact and_congr_right fun _ => hmarks

theorem skipWhile_cons {f : Char → Bool} {x : Char} {rest : List Char} (h : c.rest = x :: rest) :
    c.skipWhile f = if f x = true then (c.skip 1).skipWhile f else c := by
  unfold Cursor.skipWhile Cursor.takeWhile
  rw [h, List.takeWhile_cons]
  split
  · rw [List.length_cons, Nat.add_comm, ← skip_skip, skip_rest h]
  · exact skip_zero c

theorem takeWhile_cons {f : Char → Bool} {x : Char} {rest : List Char} (h : c.rest = x :: rest) :
    c.takeWhile f = if f x = true then x :: (c.skip 1).takeWhile f else [] := by
  unfold Cursor.takeWhile
  rw [h, List.takeWhile_cons, skip_rest h]

theorem skipWhile_of_not {f : Char → Bool} (h : ∀ x ∈ c.rest.head?, f x = false) :
    c.takeWhile f = [] ∧ c.skipWhile f = c := by
  cases hrest : c.rest with
  | nil =>
    refine ⟨by rw [Cursor.takeWhile, hrest]; rfl, ?_⟩
    rw [Cursor.skipWhile, Cursor.takeWhile, hrest]
    exact skip_zero c
  | cons x rest =>
    have hx : f x = false := h x (by rw [hrest]; rfl)
    refine ⟨?_, ?_⟩
    · rw [takeWhile_cons hrest, hx]
      rfl
    · rw [skipWhile_cons hrest, hx]
      rfl

theorem Paired.skipWhile_of_not (h : Paired p c c') {f : Char → Bool}
    (hc : ∀ x ∈ c.rest.head?, f x = false) (hc' : ∀ x ∈ c'.rest.head?, f x = false) :
    c.takeWhile f = c'.takeWhile f ∧ ∃ q, Paired q (c.skipWhile f) (c'.skipWhile f) ∧
      Together c c' (c.skipWhile f) (c'.skipWhile f) ∧
        (p.near = true → f ':' = false → q.near = true) := by
  obtain ⟨htake, hskip⟩ := Cursor.skipWhile_of_not hc
  obtain ⟨htake', hskip'⟩ := Cursor.skipWhile_of_not hc'
  rw [htake, htake', hskip, hskip']
  exact ⟨rfl, p, h, .refl c c', fun hp _ => hp⟩

/-- Skipping the characters that a test holds of. -/
theorem Paired.skipWhile (h : Paired p c c') {f : Char → Bool}
    (hbreak : ∀ x, isBreak x = true → f x = false) (hclear : p.Clear f) :
    c.takeWhile f = c'.takeWhile f ∧ ∃ q, Paired q (c.skipWhile f) (c'.skipWhile f) ∧
      Together c c' (c.skipWhile f) (c'.skipWhile f) ∧
        (p.near = true → f ':' = false → q.near = true) := by
  generalize hn : c.rest.length = n
  induction n generalizing p c c' with
  | zero =>
    obtain ⟨hc, hc'⟩ := h.rest_eq_nil (List.eq_nil_of_length_eq_zero hn)
    exact h.skipWhile_of_not (by rw [hc]; exact nofun) (by rw [hc']; exact nofun)
  | succ n ih =>
    cases h.heads with
    | ends h => rw [h] at hn; cases hn
    | @char x rest rest' q hrest hrest' hx hq hpaired htogether =>
      rw [takeWhile_cons hrest, takeWhile_cons hrest', skipWhile_cons hrest, skipWhile_cons hrest']
      cases hf : f x with
      | false => exact ⟨rfl, p, h, .refl c c', fun hp _ => hp⟩
      | true =>
        have hlength : (c.skip 1).rest.length = n := by
          rw [skip_rest hrest]
          rw [hrest, List.length_cons] at hn
          omega
        have hnext : p.near = true → f ':' = false → q.near = true := by
          intro hp hcolon
          exact hq.near hp fun heq => by rw [heq, hcolon] at hf; cases hf
        have hqclear : q.Clear f := by
          rcases hclear with hp | ⟨hp, hcolon⟩ | hclear
          · rcases hq with ⟨-, -, htext⟩ | ⟨hfalse, -⟩
            · exact .inl (htext hp)
            · rw [hp] at hfalse
              cases hfalse
          · exact .inr (.inl ⟨hnext hp hcolon, hcolon⟩)
          · exact .inr (.inr hclear)
        obtain ⟨htake, r, hr, htogether', hnear⟩ := ih hpaired hqclear hlength
        refine ⟨by simp [htake], r, hr, htogether.trans htogether', fun hp hcolon => ?_⟩
        exact hnear (hnext hp hcolon) hcolon
    | «break» hb hb' =>
      obtain ⟨x, tail, heq, hx⟩ := hb.head
      obtain ⟨y, tail', heq', hy⟩ := hb'.head
      refine h.skipWhile_of_not (fun z hz => ?_) fun z hz => ?_
      · rw [heq] at hz
        exact Option.some.inj hz ▸ hbreak x hx
      · rw [heq'] at hz
        exact Option.some.inj hz ▸ hbreak y hy
    | seam hp hcut =>
      obtain ⟨digit, rest, rest', heq, heq', hdigit⟩ := hcut.heads
      rcases hclear with htext | ⟨hnear, -⟩ | ⟨hdigits, hquote⟩
      · rw [hp] at htext
        cases htext
      · rw [hp] at hnear
        cases hnear
      · refine h.skipWhile_of_not (fun z hz => ?_) fun z hz => ?_
        · rw [heq] at hz
          exact Option.some.inj hz ▸ hdigits digit hdigit
        · rw [heq'] at hz
          exact Option.some.inj hz ▸ hquote

/-- Passing a character that cannot begin a decimal. -/
theorem Paired.skip_mark (h : Paired p c c') {mark : Char} (hsees : c.sees mark = true)
    (hbreak : isBreak mark = false) (hdigit : mark.isDigit = false) :
    ∃ q, Paired q (c.skip 1) (c'.skip 1) ∧ Together c c' (c.skip 1) (c'.skip 1) ∧
      p.Passes mark q := by
  have hhead : c.rest.head? = some mark := of_decide_eq_true hsees
  cases h.heads with
  | ends hrest => rw [hrest] at hhead; cases hhead
  | char hrest _ _ hq hpaired htogether =>
    rw [hrest] at hhead
    obtain rfl := Option.some.inj hhead
    exact ⟨_, hpaired, htogether, hq⟩
  | «break» hb =>
    obtain ⟨x, rest, hrest, hx⟩ := hb.head
    rw [hrest] at hhead
    obtain rfl := Option.some.inj hhead
    rw [hbreak] at hx
    cases hx
  | seam _ hseam =>
    obtain ⟨digit, rest, -, hrest, -, hd⟩ := hseam.heads
    rw [hrest] at hhead
    obtain rfl := Option.some.inj hhead
    rw [hdigit] at hd
    cases hd

theorem Paired.readBreak (h : Paired p c c') :
    c.readBreak.1 = c'.readBreak.1 ∧ ∃ q, Paired q c.readBreak.2 c'.readBreak.2 ∧
      Together c c' c.readBreak.2 c'.readBreak.2 ∧ (p.near = true → q.near = true) := by
  have hany := h.any_isBreak
  cases hbreak : c.peek?.any isBreak with
  | false =>
    rw [readBreak_of_not hbreak, readBreak_of_not (hany.symm.trans hbreak)]
    exact ⟨rfl, p, h, .refl c c', id⟩
  | true =>
    cases h.heads with
    | ends hrest => rw [peek?, hrest] at hbreak; cases hbreak
    | char hrest _ hx =>
      rw [peek?, hrest] at hbreak
      cases hx.symm.trans hbreak
    | «break» hb hb' hq hpaired htogether =>
      exact ⟨(readBreak_spec hb).1.trans (readBreak_spec hb').1.symm, _, hpaired, htogether, hq.near⟩
    | seam _ hseam =>
      obtain ⟨digit, rest, -, hrest, -, hdigit⟩ := hseam.heads
      rw [peek?, hrest] at hbreak
      cases (not_isBreak_of_isDigit hdigit).symm.trans hbreak

/-- Passing given characters. -/
theorem Paired.run {run rest : List Char} (h : Paired p c c') (hp : p.near = true)
    (hrest : c.rest = run ++ rest) (hrun : ∀ x ∈ run, IsInner x) :
    (∃ rest', c'.rest = run ++ rest') ∧
      (∃ q, Paired q (c.skip run.length) (c'.skip run.length) ∧ q.near = true) ∧
        Together c c' (c.skip run.length) (c'.skip run.length) := by
  induction run generalizing p c c' with
  | nil =>
    rw [List.length_nil, skip_zero, skip_zero]
    exact ⟨⟨_, rfl⟩, ⟨p, h, hp⟩, .refl c c'⟩
  | cons x run ih =>
    obtain ⟨hbreak, hcolon⟩ := hrun x List.mem_cons_self
    cases h.heads with
    | ends hnil => rw [hrest] at hnil; cases hnil
    | @char y tail tail' q htail htail' hy hq hpaired htogether =>
      obtain ⟨rfl, rfl⟩ := List.cons.inj (hrest.symm.trans htail)
      obtain ⟨⟨rest', hrest'⟩, ⟨r, hr, hnear⟩, hmoved⟩ := ih hpaired (hq.near hp hcolon)
        (skip_rest htail) fun z hz => hrun z (List.mem_cons_of_mem x hz)
      rw [skip_skip, skip_skip, Nat.add_comm] at hr hmoved
      refine ⟨⟨rest', ?_⟩, ⟨r, hr, hnear⟩, htogether.trans hmoved⟩
      rw [skip_rest htail'] at hrest'
      rw [htail', hrest', List.cons_append]
    | «break» hb =>
      obtain ⟨y, tail, htail, hy⟩ := hb.head
      obtain ⟨rfl, -⟩ := List.cons.inj (hrest.symm.trans htail)
      rw [hbreak] at hy
      cases hy
    | seam hgap => rw [hgap] at hp; cases hp

/-- Skipping some of the characters that a test holds of, which cannot begin a decimal. -/
theorem Paired.skip_of_le {f : Char → Bool} {count : Nat} (h : Paired p c c')
    (hbreak : ∀ x, isBreak x = true → f x = false) (hdigit : ∀ x, x.isDigit = true → f x = false)
    (hcount : count ≤ (c.takeWhile f).length) :
    ∃ q, Paired q (c.skip count) (c'.skip count) ∧ Together c c' (c.skip count) (c'.skip count) := by
  induction count generalizing p c c' with
  | zero =>
    rw [skip_zero, skip_zero]
    exact ⟨p, h, .refl c c'⟩
  | succ count ih =>
    have hstop : ∀ {x : Char} {rest : List Char}, c.rest = x :: rest → f x = false → False := by
      intro x rest hrest hx
      rw [takeWhile_cons hrest, hx] at hcount
      exact absurd hcount (Nat.not_succ_le_zero _)
    cases h.heads with
    | ends hrest =>
      rw [Cursor.takeWhile, hrest] at hcount
      exact absurd hcount (Nat.not_succ_le_zero _)
    | @char x rest rest' q hrest hrest' hx hq hpaired htogether =>
      cases hf : f x with
      | false => exact (hstop hrest hf).elim
      | true =>
        rw [takeWhile_cons hrest, hf] at hcount
        obtain ⟨r, hr, hmoved⟩ := ih hpaired (Nat.le_of_succ_le_succ hcount)
        rw [skip_skip, skip_skip, Nat.add_comm] at hr hmoved
        exact ⟨r, hr, htogether.trans hmoved⟩
    | «break» hb =>
      obtain ⟨x, rest, hrest, hx⟩ := hb.head
      exact (hstop hrest (hbreak x hx)).elim
    | seam _ hseam =>
      obtain ⟨digit, rest, -, hrest, -, hd⟩ := hseam.heads
      exact (hstop hrest (hdigit digit hd)).elim

theorem Paired.skipComment (h : Paired p c c') :
    ∃ q, Paired q c.skipComment c'.skipComment ∧ Together c c' c.skipComment c'.skipComment := by
  unfold Cursor.skipComment
  rw [← h.sees_eq (by decide : isBreak '#' = false) fun _ => ⟨by decide, by decide⟩]
  split
  next hsees =>
    have htext : Paired .text c c' :=
      ⟨h.aligned.text_of_sign (of_decide_eq_true hsees), h.column, h.valid, h.valid'⟩
    obtain ⟨-, q, hq, htogether, -⟩ := htext.skipWhile (f := fun x => !isBreak x)
      (fun x hx => by rw [hx]; rfl) (.inl rfl)
    exact ⟨q, hq, htogether⟩
  next => exact ⟨p, h, .refl c c'⟩

end

end Cursor

end RamlDoc.Yaml
