import Mathlib.Data.List.Forall2
import RamlDoc.Proofs.Alignment
import RamlDoc.Proofs.DecimalLines

/-!
# Lines that the text pass leaves

The text pass keeps a line or puts the decimal at its end in quotes (`fixedLines_results`). So the
text before the pass and the text behind it are aligned, unless a line ends with two carriage
returns, of which the pass drops one (`aligned_fixText`).
-/

namespace RamlDoc.Fixup

open Yaml

variable {line fixed cs ds : List Char}

/-! ## Lines -/

/-- What the pass makes of a line: the line itself, or the line with its decimal in quotes. -/
def FixedLine (line fixed : List Char) : Prop := fixed = line ∨ quotedDecimal? line = some fixed

theorem text_passLine_cases (state : PassState) (line : List Char) (following : List (List Char)) :
    ((passLine state line following).2.quoted = false ∧
        (passLine state line following).2.text = line) ∨
      ((passLine state line following).2.quoted = true ∧
        quotedDecimal? line = some (passLine state line following).2.text) := by
  unfold passLine
  split
  · exact .inl ⟨rfl, rfl⟩
  dsimp only
  split
  · exact .inl ⟨rfl, rfl⟩
  split
  · exact .inl ⟨rfl, rfl⟩
  next key value _ =>
    unfold afterEntry
    dsimp only
    cases h : quotedDecimal? line with
    | none => exact .inl ⟨rfl, rfl⟩
    | some fixed => exact .inr ⟨rfl, rfl⟩

theorem fixedLine_passLine (state : PassState) (line : List Char) (following : List (List Char)) :
    FixedLine line (passLine state line following).2.text :=
  (text_passLine_cases state line following).imp And.right And.right

theorem fixedLines_passLines (state : PassState) (lines : List (List Char)) :
    List.Forall₂ FixedLine lines ((passLines state lines).map (·.text)) := by
  induction lines generalizing state with
  | nil => exact .nil
  | cons line following ih => exact .cons (fixedLine_passLine state line following) (ih _)

theorem fixedLines_results (text : List Char) :
    List.Forall₂ FixedLine (Text.lines text) ((results text).map (·.text)) :=
  fixedLines_passLines _ _

/-! ## Alignment of a line -/

theorem isSpace_or_return {x : Char} (hblank : Text.isAsciiBlank x = true)
    (hallowed : isAllowed x = true) (hfeed : x ≠ '\n') : isSpace x = true ∨ x = '\r' := by
  have heq : ∀ y : Char, x.toNat = y.toNat → x = y := fun y h => Char.toNat_inj.1 h
  have hne : x.toNat ≠ 0xA := fun h => hfeed (heq '\n' h)
  have hcases : x.toNat = 0x20 ∨ x.toNat = 0x9 ∨ x.toNat = 0xD := by
    simp only [Text.isAsciiBlank, isAllowed, Bool.or_eq_true, Bool.and_eq_true,
      decide_eq_true_eq] at hblank hallowed
    omega
  rcases hcases with h | h | h
  · obtain rfl := heq ' ' h
    exact .inl rfl
  · obtain rfl := heq '\t' h
    exact .inl rfl
  · exact .inr (heq '\r' h)

theorem aligned_append (hfeed : '\n' ∉ line)
    (hlast : ds.head? = some '\n' → line.getLast? ≠ some '\r') (h : Aligned .text cs ds) :
    Aligned .text (line ++ cs) (line ++ ds) := by
  induction line with
  | nil => exact h
  | cons x line ih =>
    rw [List.mem_cons, not_or] at hfeed
    cases line with
    | nil => exact .char (Ne.symm hfeed.1) (fun hx hds => hlast hds (congrArg some hx)) h
    | cons y line =>
      refine .char (Ne.symm hfeed.1) (fun _ hy => hfeed.2 ?_) (ih hfeed.2 hlast)
      exact Option.some.inj hy ▸ List.mem_cons_self

theorem aligned_key {key : List Char} (hsign : '#' ∉ key) (hfeed : '\n' ∉ key)
    (h : Aligned .front cs ds) : Aligned .front (key ++ cs) (key ++ ds) := by
  induction key with
  | nil => exact h
  | cons x key ih =>
    rw [List.mem_cons, not_or] at hsign hfeed
    exact .front (Ne.symm hsign.1) (Ne.symm hfeed.1) (ih hsign.2 hfeed.2)

theorem aligned_blanks {blanks : List Char} (hne : blanks ≠ [])
    (hblanks : ∀ x ∈ blanks, isSpace x = true ∨ x = '\r') (h : Aligned .gap cs ds) :
    Aligned .blank (blanks ++ cs) (blanks ++ ds) := by
  induction blanks with
  | nil => exact absurd rfl hne
  | cons x blanks ih =>
    obtain ⟨hx, hblanks⟩ := List.forall_mem_cons.1 hblanks
    cases blanks with
    | nil => exact .blank hx h
    | cons y blanks => exact .blank hx (.gap (ih (List.cons_ne_nil _ _) hblanks))

/-- A line that the pass has left is aligned with the original. -/
theorem aligned_line (h : FixedLine line fixed) (hfeed : '\n' ∉ line)
    (hallowed : ∀ x ∈ line, isAllowed x = true)
    (hlast : ds.head? = some '\n' → line.getLast? ≠ some '\r') (hend : AtLineEnd ds)
    (hrest : Aligned .text cs ds) : Aligned .line (line ++ cs) (fixed ++ ds) := by
  rcases h with rfl | h
  · exact .unquoted (aligned_append hfeed hlast hrest)
  obtain @⟨_, decimal, after, @⟨key, blanks, hsign, -, hne, hblanks⟩, hdecimal, hafter⟩ :=
    quotedDecimal?_eq_some_iff.1 h
  have hpass : ∀ x ∈ key ++ ':' :: blanks ++ (decimal ++ after), Text.isAsciiBlank x = true →
      isSpace x = true ∨ x = '\r' := fun x hx hblank =>
    isSpace_or_return hblank (hallowed x hx) fun heq => hfeed (heq ▸ hx)
  have hgap : Aligned .gap (decimal ++ (after ++ cs)) ('"' :: (decimal ++ '"' :: ds)) := by
    refine .seam hdecimal (fun x hx => ?_) hend hrest
    rcases hpass x (by simp [hx]) (hafter x hx) with hspace | rfl
    · exact .inl hspace
    · exact .inr (by decide)
  have hblank := aligned_blanks hne (fun x hx => hpass x (by simp [hx]) (hblanks x hx)) hgap
  have hkey := aligned_key hsign (fun hmem => hfeed (by simp [hmem])) (.colon hblank)
  refine .quoted ?_
  simpa using hkey

/-! ## Alignment of the text -/

/-- Lines put together to a text, with a line feed at the end if a given text has one there. -/
def joinedLike (text : List Char) (lines : List (List Char)) : List Char :=
  if text.getLast? = some '\n' then Text.joinWith ['\n'] lines ++ ['\n']
  else Text.joinWith ['\n'] lines

theorem text_fixText (text : List Char) :
    (fixText text).text = joinedLike text ((results text).map (·.text)) := rfl

theorem joinedLike_cons {c : Char} (hc : c ≠ '\n') (text : List Char) (lines : List (List Char)) :
    joinedLike (c :: text) lines = joinedLike text lines := by
  unfold joinedLike
  cases text with
  | nil => simp [hc]
  | cons d text => rw [List.getLast?_cons_cons]

theorem joinedLike_feed {text : List Char} {lines : List (List Char)} (h : lines = [] ↔ text = [])
    (line : List Char) :
    joinedLike ('\n' :: text) (line :: lines) = line ++ '\n' :: joinedLike text lines := by
  unfold joinedLike
  cases text with
  | nil =>
    rw [h.2 rfl]
    simp [Text.joinWith]
  | cons d text =>
    obtain ⟨next, lines, rfl⟩ := List.exists_cons_of_ne_nil (mt h.1 (List.cons_ne_nil d text))
    rw [List.getLast?_cons_cons, Text.joinWith_cons_cons]
    split <;> simp

theorem linesFrom_eq_nil_iff {before text : List Char} :
    Text.linesFrom before text = [] ↔ before = [] ∧ text = [] := by
  induction text generalizing before with
  | nil => cases before <;> simp [Text.linesFrom]
  | cons c text ih =>
    rw [Text.linesFrom]
    split
    · simp
    · simp [ih]

/-- A text with new lines in the place of its own: the part of the current line before it, last
character first, the text from there on, the new lines from the current one on, and the text that
they make. -/
inductive Relined (R : List Char → List Char → Prop) :
    List Char → List Char → List (List Char) → List Char → Prop
  | nil : Relined R [] [] [] []
  | last {before fixed : List Char} (hne : before ≠ []) (hline : R before.reverse fixed) :
      Relined R before [] [fixed] fixed
  | feed {before fixed text joined : List Char} {lines : List (List Char)}
      (hline : R (Text.dropReturn before.reverse) fixed) (hrest : Relined R [] text lines joined) :
      Relined R before ('\n' :: text) (fixed :: lines) (fixed ++ '\n' :: joined)
  | char {c : Char} {before text joined : List Char} {lines : List (List Char)} (hc : c ≠ '\n')
      (hrest : Relined R (c :: before) text lines joined) :
      Relined R before (c :: text) lines joined

theorem relined_joinedLike {R : List Char → List Char → Prop} {before text : List Char}
    {lines : List (List Char)} (h : List.Forall₂ R (Text.linesFrom before text) lines) :
    Relined R before text lines (joinedLike text lines) := by
  induction text generalizing before lines with
  | nil =>
    cases before with
    | nil =>
      cases h
      exact .nil
    | cons c before =>
      obtain ⟨fixed, _, hline, hnil, rfl⟩ := List.forall₂_cons_left_iff.1 h
      cases hnil
      exact .last (List.cons_ne_nil c before) hline
  | cons c text ih =>
    rw [Text.linesFrom] at h
    split at h
    next hc =>
      subst hc
      obtain ⟨fixed, lines, hline, hlines, rfl⟩ := List.forall₂_cons_left_iff.1 h
      have hnil : lines = [] ↔ text = [] := by
        rw [← List.length_eq_zero_iff, ← hlines.length_eq, List.length_eq_zero_iff,
          linesFrom_eq_nil_iff]
        simp
      rw [joinedLike_feed hnil]
      exact .feed hline (ih hlines)
    next hc =>
      rw [joinedLike_cons hc]
      exact .char hc (ih h)

/-- The carriage return in front of a line feed is dropped with it. -/
theorem aligned_lineEnd (h : FixedLine (Text.dropReturn line) fixed) (hfeed : '\n' ∉ line)
    (hallowed : ∀ x ∈ line, isAllowed x = true) (hreturns : ¬['\r', '\r'] <:+ line)
    (hrest : Aligned .line cs ds) : Aligned .line (line ++ '\n' :: cs) (fixed ++ '\n' :: ds) := by
  have hend : AtLineEnd ('\n' :: ds) := fun x hx => Option.some.inj hx ▸ by decide
  unfold Text.dropReturn at h
  split at h
  next hreturn =>
    obtain ⟨front, rfl⟩ := List.getLast?_eq_some_iff.1 hreturn
    rw [List.dropLast_concat] at h
    rw [List.append_assoc, List.singleton_append]
    refine aligned_line h (fun hmem => hfeed (List.mem_append_left _ hmem))
      (fun x hx => hallowed x (List.mem_append_left _ hx)) (fun _ hlast => hreturns ?_) hend
      (.returned hrest)
    obtain ⟨front, rfl⟩ := List.getLast?_eq_some_iff.1 hlast
    exact ⟨front, by simp⟩
  next hreturn => exact aligned_line h hfeed hallowed (fun _ => hreturn) hend (.feed hrest)

theorem aligned_of_relined {before text joined : List Char} {lines : List (List Char)}
    (h : Relined FixedLine before text lines joined) (hfeed : '\n' ∉ before)
    (hallowed : ∀ x ∈ before.reverse ++ text, isAllowed x = true)
    (hreturns : ¬['\r', '\r', '\n'] <:+: before.reverse ++ text) :
    Aligned .line (before.reverse ++ text) joined := by
  induction h with
  | nil => exact .unquoted .nil
  | @last before fixed _ hline =>
    have hend : AtLineEnd [] := fun _ hx => by cases hx
    have haligned := aligned_line hline (by rwa [List.mem_reverse])
      (fun x hx => hallowed x (List.mem_append_left _ hx)) (fun hx => by cases hx) hend .nil
    rw [List.append_nil, List.append_nil] at haligned
    rw [List.append_nil]
    exact haligned
  | @feed before fixed text _ _ hline hrest ih =>
    refine aligned_lineEnd hline (by rwa [List.mem_reverse])
      (fun x hx => hallowed x (List.mem_append_left _ hx)) (fun hsuffix => hreturns ?_)
      (ih List.not_mem_nil
        (fun x hx => hallowed x (List.mem_append_right _ (List.mem_cons_of_mem _ hx)))
        fun hinfix => hreturns ?_)
    · obtain ⟨front, hfront⟩ := hsuffix
      exact ⟨front, text, by rw [← hfront]; simp⟩
    · obtain ⟨front, back, hfront⟩ := hinfix
      rw [List.reverse_nil, List.nil_append] at hfront
      exact ⟨before.reverse ++ '\n' :: front, back, by rw [← hfront]; simp⟩
  | @char c before text _ _ hc hrest ih =>
    have happend : before.reverse ++ c :: text = (c :: before).reverse ++ text := by simp
    rw [happend] at hallowed hreturns ⊢
    refine ih ?_ hallowed hreturns
    rw [List.mem_cons, not_or]
    exact ⟨Ne.symm hc, hfeed⟩

/-- The text pass leaves a text that is aligned with the original. -/
theorem aligned_fixText {text : List Char} (hallowed : text.all isAllowed = true)
    (hreturns : ¬['\r', '\r', '\n'] <:+: text) : Aligned .line text (fixText text).text := by
  rw [text_fixText]
  exact aligned_of_relined (relined_joinedLike (fixedLines_results text)) List.not_mem_nil
    (List.all_eq_true.1 hallowed) hreturns

end RamlDoc.Fixup
