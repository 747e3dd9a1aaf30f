import Mathlib.Data.List.Forall2
import RamlDoc.Proofs.SealedScans

/-!
# Scanners on aligned texts

Two scanners on aligned texts find the same tokens, as long as they do not reach a decimal that one
of the texts has in quotes. Each way to add a token keeps the scanners aligned, or parts them where
a scalar takes up such a decimal (`Parted`); what they find afterwards does not undo that.
-/

namespace RamlDoc.Yaml.Scanner

open Cursor

/-- Two possible keys are the same as seen from two cursors: both are on earlier lines, or both are
on the lines of the cursors and equally far behind them. -/
structure KeyAligned (c c' : Cursor) (key key' : PossibleKey) : Prop where
  position : key.position = key'.position
  column : key.column = key'.column
  required : key.required = key'.required
  place : (key.line < c.line ∧ key'.line < c'.line) ∨
    (key.line = c.line ∧ key'.line = c'.line ∧ c.offset + key'.offset = c'.offset + key.offset)

/-- Keys that may have begun stay aligned while the cursors move together. -/
theorem KeyAligned.move {c c' d d' : Cursor} {key key' : PossibleKey} (h : KeyAligned c c' key key')
    (htogether : Together c c' d d') : KeyAligned d d' key key' := by
  refine ⟨h.position, h.column, h.required, ?_⟩
  have hleft := htogether.left.line_le
  have hright := htogether.right.line_le
  rcases h.place with ⟨hline, hline'⟩ | ⟨hline, hline', hoffset⟩
  · exact .inl ⟨by omega, by omega⟩
  · rcases htogether.moved with ⟨hsame, hsame', hmoved⟩ | ⟨hlater, hlater'⟩
    · exact .inr ⟨by omega, by omega, by omega⟩
    · exact .inl ⟨by omega, by omega⟩

/-- Two scanners have found the same tokens, up to the style of decimals, and are inside the same
collections. -/
structure TokensAligned (s s' : Scanner) : Prop where
  tokens : s.tokens.map Token.unstyled = s'.tokens.map Token.unstyled
  count : s.count = s'.count
  counted : s.count = s.tokens.length
  unended : Token.streamEnd ∉ s.tokens
  indent : s.indent = s'.indent
  outerIndents : s.outerIndents = s'.outerIndents
  inFlow : s.inFlow = s'.inFlow

/-- Two scanners go on in the same way, from places of a given phase. -/
structure ScannersAligned (p : Phase) (s s' : Scanner) : Prop extends TokensAligned s s' where
  paired : Paired p s.cursor s'.cursor
  keyAllowed : s.keyAllowed = s'.keyAllowed
  possibleKey : Option.Rel (KeyAligned s.cursor s'.cursor) s.possibleKey s'.possibleKey
  outerKeys : List.Forall₂ (Option.Rel (KeyAligned s.cursor s'.cursor)) s.outerKeys s'.outerKeys

section

variable {p q : Phase} {s s' t t' : Scanner} {c c' : Cursor} {token token' : Token}

theorem TokensAligned.push (h : TokensAligned s s') (htoken : token.unstyled = token'.unstyled)
    (hend : token ≠ .streamEnd) : TokensAligned (s.push token) (s'.push token') := by
  refine ⟨?_, congrArg (· + 1) h.count, congrArg (· + 1) h.counted, ?_, h.indent, h.outerIndents,
    h.inFlow⟩
  · rw [Scanner.push, Scanner.push, List.map_cons, List.map_cons, htoken, h.tokens]
  · rw [Scanner.push, List.mem_cons, not_or]
    exact ⟨hend.symm, h.unended⟩

theorem TokensAligned.insert (h : TokensAligned s s') (position : Nat) (hend : token ≠ .streamEnd) :
    TokensAligned (s.insert position token) (s'.insert position token) := by
  refine ⟨?_, congrArg (· + 1) h.count, ?_, ?_, h.indent, h.outerIndents, h.inFlow⟩
  · simp only [Scanner.insert, List.map_append, List.map_cons, List.map_take, List.map_drop,
      h.tokens, h.count]
  · have := h.counted
    simp only [Scanner.insert, List.length_append, List.length_cons, List.length_take,
      List.length_drop]
    omega
  · simp only [Scanner.insert, List.mem_append, List.mem_cons, not_or]
    exact ⟨fun hmem => h.unended (List.mem_of_mem_take hmem), hend.symm,
      fun hmem => h.unended (List.mem_of_mem_drop hmem)⟩

theorem TokensAligned.openBlock (h : TokensAligned s s') (column position : Nat)
    (hend : token ≠ .streamEnd) :
    TokensAligned (s.openBlock column token position) (s'.openBlock column token position) := by
  unfold Scanner.openBlock
  rw [h.inFlow, h.indent]
  split
  · exact h
  · obtain ⟨htokens, hcount, hcounted, hunended, -, -, hflow⟩ := h.insert position hend
    exact ⟨htokens, hcount, hcounted, hunended, rfl, congrArg (_ :: ·) h.outerIndents, hflow⟩

theorem TokensAligned.closeBlocksFrom (h : TokensAligned s s') (column : Int) (outer : List Int) :
    TokensAligned (Scanner.closeBlocksFrom column outer s)
      (Scanner.closeBlocksFrom column outer s') := by
  induction outer generalizing s s' with
  | nil => exact h
  | cons indent outer ih =>
    rw [Scanner.closeBlocksFrom, Scanner.closeBlocksFrom, h.indent]
    split
    · obtain ⟨htokens, hcount, hcounted, hunended, -, -, hflow⟩ :=
        h.push (rfl : Token.blockEnd.unstyled = Token.blockEnd.unstyled) Token.noConfusion
      exact ih ⟨htokens, hcount, hcounted, hunended, rfl, rfl, hflow⟩
    · exact h

theorem TokensAligned.closeBlocks (h : TokensAligned s s') (column : Int) :
    TokensAligned (s.closeBlocks column) (s'.closeBlocks column) := by
  unfold Scanner.closeBlocks
  rw [h.inFlow, h.outerIndents]
  split
  · exact h
  · exact h.closeBlocksFrom column _

theorem inFlow_eq {keys keys' : List (Option PossibleKey)}
    (h : List.Forall₂ (Option.Rel (KeyAligned c c')) keys keys') :
    (!keys.isEmpty) = !keys'.isEmpty := by
  cases h <;> rfl

theorem key_move {key key' : Option PossibleKey} {d d' : Cursor}
    (h : Option.Rel (KeyAligned c c') key key') (htogether : Together c c' d d') :
    Option.Rel (KeyAligned d d') key key' := by
  cases h with
  | none => exact .none
  | some h => exact .some (h.move htogether)

theorem keys_move {keys keys' : List (Option PossibleKey)} {d d' : Cursor}
    (h : List.Forall₂ (Option.Rel (KeyAligned c c')) keys keys') (htogether : Together c c' d d') :
    List.Forall₂ (Option.Rel (KeyAligned d d')) keys keys' :=
  h.imp fun _ _ hkey => key_move hkey htogether

/-- Moving on together. -/
theorem ScannersAligned.move (h : ScannersAligned p s s') (hq : Paired q c c')
    (htogether : Together s.cursor s'.cursor c c') (keyAllowed : Bool) :
    ScannersAligned q { s with cursor := c, keyAllowed } { s' with cursor := c', keyAllowed } where
  tokens := h.tokens
  count := h.count
  counted := h.counted
  unended := h.unended
  indent := h.indent
  outerIndents := h.outerIndents
  inFlow := h.inFlow
  paired := hq
  keyAllowed := rfl
  possibleKey := key_move h.possibleKey htogether
  outerKeys := keys_move h.outerKeys htogether

/-- Keeping or exchanging the possible keys. -/
theorem ScannersAligned.of_keys (h : ScannersAligned p s s')
    {possibleKey possibleKey' : Option PossibleKey} {outerKeys outerKeys' : List (Option PossibleKey)}
    (hkey : Option.Rel (KeyAligned s.cursor s'.cursor) possibleKey possibleKey')
    (houter : List.Forall₂ (Option.Rel (KeyAligned s.cursor s'.cursor)) outerKeys outerKeys') :
    ScannersAligned p { s with possibleKey, outerKeys }
      { s' with possibleKey := possibleKey', outerKeys := outerKeys' } where
  tokens := h.tokens
  count := h.count
  counted := h.counted
  unended := h.unended
  indent := h.indent
  outerIndents := h.outerIndents
  inFlow := inFlow_eq houter
  paired := h.paired
  keyAllowed := h.keyAllowed
  possibleKey := hkey
  outerKeys := houter

theorem ScannersAligned.goto (h : ScannersAligned p s s') (hq : Paired q c c')
    (htogether : Together s.cursor s'.cursor c c') :
    ScannersAligned q (s.goto c) (s'.goto c') := by
  have hmove := h.move hq htogether s.keyAllowed
  exact ⟨⟨h.tokens, h.count, h.counted, h.unended, h.indent, h.outerIndents, h.inFlow⟩, hq,
    h.keyAllowed, hmove.possibleKey, hmove.outerKeys⟩

theorem ScannersAligned.allow (h : ScannersAligned p s s') (keyAllowed : Bool) :
    ScannersAligned p { s with keyAllowed } { s' with keyAllowed } :=
  h.move h.paired (.refl _ _) keyAllowed

/-- Tokens that are the same up to style may be added on both sides. -/
theorem ScannersAligned.push (h : ScannersAligned p s s') (htoken : token.unstyled = token'.unstyled)
    (hend : token ≠ .streamEnd) : ScannersAligned p (s.push token) (s'.push token') :=
  ⟨h.toTokensAligned.push htoken hend, h.paired, h.keyAllowed, h.possibleKey, h.outerKeys⟩

theorem ScannersAligned.insert (h : ScannersAligned p s s') (position : Nat)
    (hend : token ≠ .streamEnd) :
    ScannersAligned p (s.insert position token) (s'.insert position token) :=
  ⟨h.toTokensAligned.insert position hend, h.paired, h.keyAllowed, h.possibleKey, h.outerKeys⟩

theorem openBlock_frame (s : Scanner) (column : Nat) (token : Token) (position : Nat) :
    ∃ tokens count indent outerIndents, s.openBlock column token position =
      { s with tokens, count, indent, outerIndents } := by
  unfold Scanner.openBlock
  split
  · exact ⟨_, _, _, _, rfl⟩
  · exact ⟨_, _, _, _, rfl⟩

theorem ScannersAligned.openBlock (h : ScannersAligned p s s') (column position : Nat)
    (hend : token ≠ .streamEnd) :
    ScannersAligned p (s.openBlock column token position) (s'.openBlock column token position) := by
  have htokens := h.toTokensAligned.openBlock column position hend
  obtain ⟨_, _, _, _, heq⟩ := openBlock_frame s column token position
  obtain ⟨_, _, _, _, heq'⟩ := openBlock_frame s' column token position
  rw [heq, heq'] at htokens ⊢
  exact ⟨htokens, h.paired, h.keyAllowed, h.possibleKey, h.outerKeys⟩

theorem ScannersAligned.closeBlocks (h : ScannersAligned p s s') (column : Int) :
    ScannersAligned p (s.closeBlocks column) (s'.closeBlocks column) := by
  have htokens := h.toTokensAligned.closeBlocks column
  obtain ⟨_, _, _, _, heq⟩ := closeBlocks_frame s column
  obtain ⟨_, _, _, _, heq'⟩ := closeBlocks_frame s' column
  rw [heq, heq'] at htokens ⊢
  exact ⟨htokens, h.paired, h.keyAllowed, h.possibleKey, h.outerKeys⟩

/-- Two scanners stay aligned where they are. -/
structure Stay (p : Phase) (s s' t t' : Scanner) : Prop where
  aligned : ScannersAligned p t t'
  left : t.cursor = s.cursor
  right : t'.cursor = s'.cursor

theorem required_eq {key key' : Option PossibleKey} (h : Option.Rel (KeyAligned c c') key key') :
    key.any (·.required) = key'.any (·.required) := by
  cases h with
  | none => rfl
  | some h => exact h.required

theorem dropKey_aligned (h : ScannersAligned p s s') :
    Both (Stay p s s') s.dropKey s'.dropKey := by
  unfold dropKey
  rw [required_eq h.possibleKey]
  split
  · exact .error_left _ _
  · exact .ok ⟨h.of_keys .none h.outerKeys, rfl, rfl⟩

/-- Both scanners note that a key may begin, or refuse. -/
theorem noteKey_aligned (h : ScannersAligned p s s') :
    Both (Stay p s s') s.noteKey s'.noteKey := by
  unfold noteKey
  rw [h.keyAllowed]
  split
  · refine (dropKey_aligned h).bind fun t t' ht => ?_
    obtain ⟨ht, hc, hc'⟩ := ht
    refine .ok ⟨ht.of_keys (.some ⟨ht.count, ht.paired.column, ?_, .inr ⟨rfl, rfl, ?_⟩⟩)
      ht.outerKeys, hc, hc'⟩
    · dsimp only
      rw [ht.inFlow, ht.indent, ht.paired.column]
    · exact Nat.add_comm _ _
  · exact .ok ⟨h, rfl, rfl⟩

/-- Both scanners close all blocks at the same place. -/
theorem leaveBlocks_aligned (h : ScannersAligned p s s') :
    Both (Stay p s s') s.leaveBlocks s'.leaveBlocks := by
  refine (dropKey_aligned (h.closeBlocks (-1))).bind fun t t' ht => ?_
  obtain ⟨ht, hc, hc'⟩ := ht
  exact .ok ⟨ht.allow false, hc.trans (quiet_closeBlocks s (-1)).cursor,
    hc'.trans (quiet_closeBlocks s' (-1)).cursor⟩

/-! ## Tokens -/

/-- Two scanners stay aligned, with the cursors moved on. -/
def GoOn (s s' : Scanner) : Prop := ∃ q, ScannersAligned q s s'

theorem Stay.trans {u u' : Scanner} (h : Stay p s s' t t') (h' : Stay p t t' u u') :
    Stay p s s' u u' :=
  ⟨h'.aligned, h'.left.trans h.left, h'.right.trans h.right⟩

theorem openBlock_aligned (h : ScannersAligned p s s') (token : Token)
    (hend : token ≠ .streamEnd) :
    Stay p s s' (s.openBlock s.cursor.column token s.count)
      (s'.openBlock s'.cursor.column token s'.count) := by
  rw [← h.count, ← h.paired.column]
  exact ⟨h.openBlock _ _ hend, openBlock_cursor _ _ _ _, openBlock_cursor _ _ _ _⟩

/-- A mark adds the same token on both sides and moves past the same characters. -/
theorem Stay.pushMark (h : Stay p s s' t t') (token : Token) (htoken : token ≠ .streamEnd) {length : Nat}
    (hq : Paired q (s.cursor.skip length) (s'.cursor.skip length))
    (htogether : Together s.cursor s'.cursor (s.cursor.skip length) (s'.cursor.skip length)) :
    ScannersAligned q (t.pushMark token length) (t'.pushMark token length) := by
  rw [← h.left, ← h.right] at hq htogether
  exact (h.aligned.push rfl htoken).goto hq htogether

section

variable {x : Char} (h : ScannersAligned p s s')
  (hq : Paired q (s.cursor.skip 1) (s'.cursor.skip 1))
  (htogether : Together s.cursor s'.cursor (s.cursor.skip 1) (s'.cursor.skip 1))

include h hq htogether

theorem openFlow_aligned (token : Token) (htoken : token ≠ .streamEnd) :
    Both GoOn (s.openFlow token) (s'.openFlow token) := by
  refine (noteKey_aligned h).bind fun t t' ht => ?_
  have hpush := ht.pushMark token htoken hq htogether
  rw [← ht.left, ← ht.right] at htogether
  refine .ok ⟨q, (hpush.of_keys .none (.cons ?_ ?_)).allow true⟩
  · exact key_move ht.aligned.possibleKey htogether
  · exact keys_move ht.aligned.outerKeys htogether

omit hq htogether in
theorem leaveFlow_aligned : Stay p s s'
    (match s.outerKeys with
      | key :: outerKeys => { s with possibleKey := key, outerKeys }
      | [] => s)
    (match s'.outerKeys with
      | key :: outerKeys => { s' with possibleKey := key, outerKeys }
      | [] => s') := by
  have houter := h.outerKeys
  generalize hkeys : s.outerKeys = keys at houter
  generalize hkeys' : s'.outerKeys = keys' at houter
  cases houter with
  | nil => exact ⟨h, rfl, rfl⟩
  | cons hkey houter => exact ⟨h.of_keys hkey houter, rfl, rfl⟩

theorem closeFlow_aligned (token : Token) (htoken : token ≠ .streamEnd) :
    Both GoOn (s.closeFlow token) (s'.closeFlow token) := by
  refine (dropKey_aligned h).bind fun t t' ht => ?_
  have hleave := ht.trans (leaveFlow_aligned ht.aligned)
  exact .ok ⟨q, (hleave.pushMark token htoken hq htogether).allow false⟩

theorem addFlowEntry_aligned : Both GoOn s.addFlowEntry s'.addFlowEntry := by
  refine (dropKey_aligned h).bind fun t t' ht => ?_
  exact .ok ⟨q, (ht.pushMark .flowEntry nofun hq htogether).allow true⟩

theorem addBlockEntry_aligned : Both GoOn s.addBlockEntry s'.addBlockEntry := by
  unfold addBlockEntry
  rw [h.inFlow, h.keyAllowed]
  split
  · exact .error_left _ _
  · have hopen := openBlock_aligned h .blockSequenceStart nofun
    refine (dropKey_aligned hopen.aligned).bind fun t t' ht => ?_
    exact .ok ⟨q, ((hopen.trans ht).pushMark .blockEntry nofun hq htogether).allow true⟩

theorem addKey_aligned : Both GoOn s.addKey s'.addKey := by
  unfold addKey
  rw [h.inFlow, h.keyAllowed]
  split
  · exact .error_left _ _
  · have hopen := openBlock_aligned h .blockMappingStart nofun
    refine (dropKey_aligned hopen.aligned).bind fun t t' ht => ?_
    have hpush := (hopen.trans ht).pushMark .key nofun hq htogether
    dsimp only
    rw [ht.aligned.inFlow]
    exact .ok ⟨q, hpush.allow _⟩

/-- A colon makes a key of the same place in both texts. -/
theorem addValue_aligned : Both GoOn s.addValue s'.addValue := by
  have hkey := h.possibleKey
  unfold addValue
  generalize s.possibleKey = key at hkey
  generalize s'.possibleKey = key' at hkey
  cases hkey with
  | none =>
    dsimp only
    rw [h.inFlow, h.keyAllowed]
    split
    · exact .error_left _ _
    · have hopen := openBlock_aligned h .blockMappingStart nofun
      have hpush := hopen.pushMark .value nofun hq htogether
      rw [hopen.aligned.inFlow]
      exact .ok ⟨q, hpush.allow _⟩
  | @some key key' hkey =>
    dsimp only
    rw [← hkey.position, ← hkey.column]
    have hinsert : ScannersAligned p (s.insert key.position .key) (s'.insert key.position .key) :=
      h.insert key.position nofun
    have hopen : Stay p s s'
        ((s.insert key.position .key).openBlock key.column .blockMappingStart key.position)
        ((s'.insert key.position .key).openBlock key.column .blockMappingStart key.position) :=
      ⟨hinsert.openBlock _ _ nofun, openBlock_cursor _ _ _ _, openBlock_cursor _ _ _ _⟩
    have hpush := hopen.pushMark .value nofun hq htogether
    exact .ok ⟨q, (hpush.of_keys .none hpush.outerKeys).allow false⟩

theorem addAnchor_aligned (hnear : q.near = true) (name : String → Token)
    (hname : ∀ anchor, name anchor ≠ .streamEnd) : Both GoOn (s.addAnchor name) (s'.addAnchor name) := by
  refine (noteKey_aligned h).bind fun t t' ht => ?_
  rw [ht.left, ht.right]
  refine (readAnchor_aligned hq hnear).bind fun ⟨anchor, c⟩ ⟨anchor', c'⟩ hread => ?_
  obtain ⟨hvalue, ⟨r, -, hr⟩, hmoved⟩ := hread
  obtain rfl : anchor = anchor' := hvalue
  have hpush : ScannersAligned p (t.push (name anchor)) (t'.push (name anchor)) :=
    ht.aligned.push rfl (hname anchor)
  have hmove : Together t.cursor t'.cursor c c' := by
    rw [ht.left, ht.right]
    exact htogether.trans hmoved
  exact .ok ⟨r, (hpush.goto hr hmove).allow false⟩

end

section

variable {token token' : Token}

theorem readTag_ne_streamEnd {flow : Bool} {d : Cursor} (h : readTag flow c = .ok (token, d)) :
    token ≠ .streamEnd := by
  rw [readTag_eq] at h
  obtain ⟨parts, -, h⟩ := exists_of_bind_eq_ok h
  unfold closeTag at h
  split at h
  · cases h
  · obtain ⟨rfl, -⟩ := Prod.mk.inj (Except.ok.inj h)
    exact nofun

/-- A tag is the same in both texts, since no decimal stands in it. -/
theorem addTag_aligned (h : ScannersAligned p s s') (hp : p.near = true)
    (hsees : s.cursor.sees '!' = true) : Both GoOn s.addTag s'.addTag := by
  refine (noteKey_aligned h).bind fun t t' ht => ?_
  have hread : Both (ReadAligned Short s.cursor s'.cursor) (readTag t.inFlow s.cursor)
      (readTag t.inFlow s'.cursor) := readTag_aligned h.paired hp hsees
  rw [← ht.left, ← ht.right] at hread
  rintro u u' hu hu'
  obtain ⟨⟨token, c⟩, hc, hu⟩ := exists_of_bind_eq_ok hu
  obtain ⟨⟨token', c'⟩, hc', hu'⟩ := exists_of_bind_eq_ok hu'
  obtain rfl := Except.ok.inj hu
  obtain rfl := Except.ok.inj hu'
  rw [← ht.aligned.inFlow] at hc'
  obtain ⟨hvalue, ⟨r, -, hr⟩, hmoved⟩ := hread _ _ hc hc'
  obtain rfl : token = token' := hvalue
  have hpush : ScannersAligned p (t.push token) (t'.push token) :=
    ht.aligned.push rfl (readTag_ne_streamEnd hc)
  exact ⟨r, (hpush.goto hr hmoved).allow false⟩

theorem readDirective_ne_streamEnd {c d : Cursor} (h : readDirective c = .ok (token, d)) :
    token ≠ .streamEnd := by
  rw [readDirective_eq] at h
  rcases cases_of_ite h with ⟨-, h⟩ | ⟨-, h⟩
  · cases h
  obtain ⟨⟨directive, e⟩, hdirective, h⟩ := exists_of_bind_eq_ok h
  unfold closeDirective at h
  split at h
  · obtain ⟨rfl, -⟩ := Prod.mk.inj (Except.ok.inj h)
    unfold directiveToken at hdirective
    rcases cases_of_ite hdirective with ⟨-, h⟩ | ⟨-, h⟩
    · obtain ⟨major, -, h⟩ := exists_of_bind_eq_ok h
      rcases cases_of_ite h with ⟨-, h⟩ | ⟨-, h⟩
      · obtain ⟨minor, -, h⟩ := exists_of_bind_eq_ok h
        cases h
        exact nofun
      · cases h
    rcases cases_of_ite h with ⟨-, h⟩ | ⟨-, h⟩
    · obtain ⟨handle, -, h⟩ := exists_of_bind_eq_ok h
      rcases cases_of_ite h with ⟨-, h⟩ | ⟨-, h⟩
      · cases h
      rcases cases_of_ite h with ⟨-, h⟩ | ⟨-, h⟩
      · obtain ⟨expansion, -, h⟩ := exists_of_bind_eq_ok h
        rcases cases_of_ite h with ⟨-, h⟩ | ⟨-, h⟩
        · cases h
          exact nofun
        · cases h
      · cases h
    · cases h
  · cases h

theorem addDirective_aligned (h : ScannersAligned p s s')
    (hq : Paired q (s.cursor.skip 1) (s'.cursor.skip 1)) (hnear : q.near = true)
    (htogether : Together s.cursor s'.cursor (s.cursor.skip 1) (s'.cursor.skip 1)) :
    Both GoOn
      (do
        let t ← s.leaveBlocks
        let (token, c) ← readDirective t.cursor
        return (t.push token).goto c)
      (do
        let t ← s'.leaveBlocks
        let (token, c) ← readDirective t.cursor
        return (t.push token).goto c) := by
  refine (leaveBlocks_aligned h).bind fun t t' ht => ?_
  rw [ht.left, ht.right]
  rintro u u' hu hu'
  obtain ⟨⟨token, c⟩, hc, hu⟩ := exists_of_bind_eq_ok hu
  obtain ⟨⟨token', c'⟩, hc', hu'⟩ := exists_of_bind_eq_ok hu'
  obtain rfl := Except.ok.inj hu
  obtain rfl := Except.ok.inj hu'
  obtain ⟨hvalue, ⟨r, -, hr⟩, hmoved⟩ := readDirective_aligned hq hnear _ _ hc hc'
  obtain rfl : token = token' := hvalue
  have hpush : ScannersAligned p (t.push token) (t'.push token) :=
    ht.aligned.push rfl (readDirective_ne_streamEnd hc)
  refine ⟨r, hpush.goto hr ?_⟩
  change Together t.cursor t'.cursor c c'
  rw [ht.left, ht.right]
  exact htogether.trans hmoved

theorem addBoundary_aligned (h : ScannersAligned p s s') (hp : p.near = true) {mark : Char}
    (hmark : IsInner mark) (hboundary : s.cursor.atBoundary mark = true)
    (htoken : token ≠ .streamEnd) :
    Both GoOn (return (← s.leaveBlocks).pushMark token 3 : Except ReadError Scanner)
      (return (← s'.leaveBlocks).pushMark token 3) := by
  refine (leaveBlocks_aligned h).bind fun t t' ht => ?_
  have htake : s.cursor.rest.take 3 = [mark, mark, mark] := by
    unfold atBoundary at hboundary
    simp only [Bool.and_eq_true, decide_eq_true_eq] at hboundary
    exact hboundary.1.2
  have hrest : s.cursor.rest = [mark, mark, mark] ++ s.cursor.rest.drop 3 := by
    rw [← htake, List.take_append_drop]
  obtain ⟨-, ⟨q, hq, -⟩, htogether⟩ := h.paired.run hp hrest fun x hx => by
    simp only [List.mem_cons, List.not_mem_nil, or_false, or_self] at hx
    exact hx ▸ hmark
  exact .ok ⟨q, ht.pushMark token htoken hq htogether⟩

end

/-! ## Scalars -/

/-- Two scanners have found the same tokens up to scalars whose texts are apart, and these tokens do
not change any more. -/
inductive Parted (s s' : Scanner) : Prop
  | mk {tokens tokens' : List Token} {text text' : List Char} {plain plain' : Bool}
    (hsame : tokens.map Token.unstyled = tokens'.map Token.unstyled)
    (hend : Token.streamEnd ∉ tokens) (hapart : Node.TextsApart text text')
    (h : Sealed (tokens ++ [.scalar text plain]) s)
    (h' : Sealed (tokens' ++ [.scalar text' plain']) s')

/-- Two scanners stay aligned, or part. -/
def Outcome (s s' : Scanner) : Prop := GoOn s s' ∨ Parted s s'

theorem keys_line_le {keys keys' : List (Option PossibleKey)}
    (h : List.Forall₂ (Option.Rel (KeyAligned c c')) keys keys') :
    (∀ key : PossibleKey, some key ∈ keys → key.line ≤ c.line) ∧
      ∀ key : PossibleKey, some key ∈ keys' → key.line ≤ c'.line := by
  induction h with
  | nil => exact ⟨nofun, nofun⟩
  | cons hkey _ ih =>
    obtain ⟨hleft, hright⟩ := ih
    cases hkey with
    | none =>
      exact ⟨fun key hmem => hleft key (by simpa using hmem),
        fun key hmem => hright key (by simpa using hmem)⟩
    | some hkey =>
      have hplace := hkey.place
      refine ⟨fun key hmem => ?_, fun key hmem => ?_⟩
      · rcases List.mem_cons.1 hmem with hmem | hmem
        · obtain rfl := Option.some.inj hmem
          omega
        · exact hleft key hmem
      · rcases List.mem_cons.1 hmem with hmem | hmem
        · obtain rfl := Option.some.inj hmem
          omega
        · exact hright key hmem

/-- The tokens up to a scalar do not change if no colon can follow the scalar on its line. -/
theorem sealed_scalar (hcount : s.count = s.tokens.length) (hvalid : s.cursor.Valid)
    (hline : ∀ key : PossibleKey, some key ∈ s.possibleKey :: s.outerKeys →
      key.line ≤ s.cursor.line) (hsealed : s.cursor.Sealed c) (token : Token) (keyAllowed : Bool) :
    Sealed (s.tokens.reverse ++ [token]) { (s.push token).goto c with keyAllowed } := by
  refine ⟨?_, congrArg (· + 1) hcount, hsealed.advances.valid hvalid, fun key hkey => .inr ?_⟩
  · rw [← List.reverse_cons]
    exact List.prefix_rfl
  · have hle := hline key hkey
    have hadvance := hsealed.advances.line_le
    rcases hsealed.free with hlater | hfree
    · exact .inl (Nat.lt_of_le_of_lt hle hlater)
    · rcases Nat.lt_or_eq_of_le (Nat.le_trans hle hadvance) with hlater | hsame
      · exact .inl hlater
      · exact .inr ⟨hsame, hfree⟩

theorem ScannersAligned.parted (h : ScannersAligned p s s') {text text' : List Char}
    (hapart : Node.TextsApart text text') (hleft : s.cursor.Sealed c) (hright : s'.cursor.Sealed c')
    (plain plain' keyAllowed keyAllowed' : Bool) :
    Parted { (s.push (.scalar text plain)).goto c with keyAllowed }
      { (s'.push (.scalar text' plain')).goto c' with keyAllowed := keyAllowed' } := by
  obtain ⟨hline, hline'⟩ := keys_line_le (.cons h.possibleKey h.outerKeys)
  have hcount' : s'.count = s'.tokens.length := by
    have hlength := congrArg List.length h.tokens
    rw [List.length_map, List.length_map] at hlength
    rw [← h.count, h.counted, hlength]
  refine .mk ?_ ?_ hapart
    (sealed_scalar h.counted h.paired.valid hline hleft _ _)
    (sealed_scalar hcount' h.paired.valid' hline' hright _ _)
  · rw [List.map_reverse, List.map_reverse, h.tokens]
  · rw [List.mem_reverse]
    exact h.unended

/-- Adding a scalar. -/
theorem addScalar_aligned (h : ScannersAligned p s s') {scalar scalar' : ScannedScalar}
    (hscalar : ScannedScalar.Outcome s.cursor s'.cursor scalar scalar') (plain : Bool)
    {keyAllowed keyAllowed' : Bool}
    (hallowed : scalar.broken = scalar'.broken → keyAllowed = keyAllowed') :
    Outcome { (s.push (.scalar scalar.text plain)).goto scalar.cursor with keyAllowed }
      { (s'.push (.scalar scalar'.text plain)).goto scalar'.cursor with
        keyAllowed := keyAllowed' } := by
  rcases hscalar with ⟨htext, hbroken, ⟨q, hq⟩, htogether⟩ | ⟨hapart, hleft, hright⟩
  · obtain rfl := hallowed hbroken
    have hpush : ScannersAligned p (s.push (.scalar scalar.text plain))
        (s'.push (.scalar scalar'.text plain)) := h.push (by rw [htext]) nofun
    exact .inl ⟨q, (hpush.goto hq htogether).allow _⟩
  · exact .inr (h.parted hapart hleft hright _ _ _ _)

theorem addBlockScalar_aligned (h : ScannersAligned p s s')
    (hq : Paired q (s.cursor.skip 1) (s'.cursor.skip 1)) (hnear : q.near = true)
    (htogether : Together s.cursor s'.cursor (s.cursor.skip 1) (s'.cursor.skip 1))
    (literal : Bool) : Both Outcome (s.addBlockScalar literal) (s'.addBlockScalar literal) := by
  refine (dropKey_aligned h).bind fun t t' ht => ?_
  rw [ht.left, ht.right, ht.aligned.indent]
  refine (Block.read_aligned hq hnear).bind fun scalar scalar' hscalar => .ok ?_
  refine addScalar_aligned ht.aligned ?_ false fun _ => rfl
  rw [ht.left, ht.right]
  exact hscalar.after htogether

theorem addQuotedScalar_aligned (h : ScannersAligned p s s')
    (hq : Paired q (s.cursor.skip 1) (s'.cursor.skip 1))
    (htogether : Together s.cursor s'.cursor (s.cursor.skip 1) (s'.cursor.skip 1))
    (single : Bool) : Both Outcome (s.addQuotedScalar single) (s'.addQuotedScalar single) := by
  refine (noteKey_aligned h).bind fun t t' ht => ?_
  rw [ht.left, ht.right]
  refine (Quoted.read_aligned hq).bind fun scalar scalar' hscalar => .ok ?_
  refine addScalar_aligned ht.aligned ?_ false fun _ => rfl
  rw [ht.left, ht.right]
  exact hscalar.after htogether

theorem addPlainScalar_aligned (h : ScannersAligned p s s') (hp : p.near = true) :
    Both Outcome s.addPlainScalar s'.addPlainScalar := by
  refine (noteKey_aligned h).bind fun t t' ht => ?_
  rw [ht.left, ht.right, ht.aligned.indent, ht.aligned.inFlow]
  refine (Plain.read_aligned h.paired hp).bind fun scalar scalar' hscalar => .ok ?_
  refine addScalar_aligned ht.aligned ?_ true fun hbroken => hbroken
  rw [ht.left, ht.right]
  exact .inl hscalar

/-! ## The next token -/

section

variable {x : Char} {rest rest' : List Char}

/-- An unquoted scalar begins in both texts or in neither. -/
theorem startsPlain_eq (h : ScannersAligned p s s') (hrest : s.cursor.rest = x :: rest)
    (hrest' : s'.cursor.rest = x :: rest') (hq : Paired q (s.cursor.skip 1) (s'.cursor.skip 1)) :
    s.startsPlain = s'.startsPlain := by
  have hblank : s.cursor.blankAt 1 = s'.cursor.blankAt 1 := by
    rw [blankAt_succ, blankAt_succ, hq.blankAt_zero_eq]
  unfold startsPlain
  dsimp only
  have hpeek : s.cursor.peek? = s'.cursor.peek? := by
    rw [peek?, peek?, hrest, hrest', List.head?_cons, List.head?_cons]
  rw [getElem?_one, getElem?_one, hq.any_isSpace, hblank, h.inFlow, hpeek]

/-- A token that begins with the same character. -/
theorem addToken_aligned (h : ScannersAligned p s s') (hrest : s.cursor.rest = x :: rest)
    (hrest' : s'.cursor.rest = x :: rest') (hx : isSpace x = false) (hpasses : p.Passes x q)
    (hq : Paired q (s.cursor.skip 1) (s'.cursor.skip 1))
    (htogether : Together s.cursor s'.cursor (s.cursor.skip 1) (s'.cursor.skip 1)) :
    Both Outcome (s.addToken x) (s'.addToken x) := by
  have hp := near_of_passes hpasses hx
  have hnear : ∀ {y : Char}, x = y → y ≠ ':' → q.near = true := fun heq hy =>
    hpasses.near hp (heq ▸ hy)
  have hgo : ∀ {r r' : Except ReadError Scanner}, Both GoOn r r' → Both Outcome r r' :=
    fun h => h.mono fun _ _ => .inl
  have hblank : s.cursor.blankAt 1 = s'.cursor.blankAt 1 := by
    rw [blankAt_succ, blankAt_succ, hq.blankAt_zero_eq]
  unfold addToken
  dsimp only
  rw [h.paired.column, ← h.paired.atBoundary_eq (by decide : isBreak '-' = false) (by decide) (by decide),
    ← h.paired.atBoundary_eq (by decide : isBreak '.' = false) (by decide) (by decide), h.inFlow, hblank,
    startsPlain_eq h hrest hrest' hq]
  refine .ite (fun hsign => ?_) fun _ => ?_
  · rw [Bool.and_eq_true, decide_eq_true_eq, decide_eq_true_eq] at hsign
    exact hgo (addDirective_aligned h hq (hnear hsign.2 (by decide)) htogether)
  refine .ite (fun hdash => hgo (addBoundary_aligned h hp ⟨by decide, by decide⟩ hdash nofun)) fun _ => ?_
  refine .ite (fun hpoint => hgo (addBoundary_aligned h hp ⟨by decide, by decide⟩ hpoint nofun)) fun _ => ?_
  refine .ite (fun _ => hgo (openFlow_aligned h hq htogether _ nofun)) fun _ => ?_
  refine .ite (fun _ => hgo (openFlow_aligned h hq htogether _ nofun)) fun _ => ?_
  refine .ite (fun _ => hgo (closeFlow_aligned h hq htogether _ nofun)) fun _ => ?_
  refine .ite (fun _ => hgo (closeFlow_aligned h hq htogether _ nofun)) fun _ => ?_
  refine .ite (fun _ => hgo (addFlowEntry_aligned h hq htogether)) fun _ => ?_
  refine .ite (fun _ => hgo (addBlockEntry_aligned h hq htogether)) fun _ => ?_
  refine .ite (fun _ => hgo (addKey_aligned h hq htogether)) fun _ => ?_
  refine .ite (fun _ => hgo (addValue_aligned h hq htogether)) fun _ => ?_
  refine .ite (fun heq => ?_) fun _ => ?_
  · exact hgo (addAnchor_aligned h hq htogether (hnear heq (by decide)) _ nofun)
  refine .ite (fun heq => ?_) fun _ => ?_
  · exact hgo (addAnchor_aligned h hq htogether (hnear heq (by decide)) _ nofun)
  refine .ite (fun heq => ?_) fun _ => ?_
  · exact hgo (addTag_aligned h hp (by rw [sees, peek?, hrest, heq]; rfl))
  refine .ite (fun heq => ?_) fun _ => ?_
  · rw [Bool.and_eq_true, decide_eq_true_eq] at heq
    exact addBlockScalar_aligned h hq (hnear heq.1 (by decide)) htogether _
  refine .ite (fun heq => ?_) fun _ => ?_
  · rw [Bool.and_eq_true, decide_eq_true_eq] at heq
    exact addBlockScalar_aligned h hq (hnear heq.1 (by decide)) htogether _
  refine .ite (fun _ => addQuotedScalar_aligned h hq htogether _) fun _ => ?_
  refine .ite (fun _ => addQuotedScalar_aligned h hq htogether _) fun _ => ?_
  refine .ite (fun _ => addPlainScalar_aligned h hp) fun _ => ?_
  exact .error_left _ _

/-- No token begins with a blank. -/
theorem addToken_of_isSpace (hrest : s.cursor.rest = x :: rest) (hx : isSpace x = true) :
    ∃ error, s.addToken x = .error error := by
  have hboundary : ∀ mark, x ≠ mark → s.cursor.atBoundary mark = false := fun _ =>
    atBoundary_of_ne hrest
  have hstart : s.startsPlain = false := by
    unfold startsPlain peek?
    dsimp only
    rw [hrest]
    rcases eq_of_isSpace hx with rfl | rfl <;> simp [isSpace]
  refine ⟨.unexpectedCharacter x, ?_⟩
  unfold addToken
  dsimp only
  rcases eq_of_isSpace hx with rfl | rfl
  · rw [hboundary '-' (by decide), hboundary '.' (by decide), hstart]
    simp
  · rw [hboundary '-' (by decide), hboundary '.' (by decide), hstart]
    simp

end

/-! ## Between the tokens -/

theorem passBlanks_aligned (h : Paired p c c') (tabs : Bool) :
    ∃ q, Paired q (passBlanks tabs c) (passBlanks tabs c') ∧
      Together c c' (passBlanks tabs c) (passBlanks tabs c') := by
  have hmark : ∃ q, Paired q (if c.column = 0 && c.sees '\ufeff' then c.skip 1 else c)
      (if c'.column = 0 && c'.sees '\ufeff' then c'.skip 1 else c') ∧
        Together c c' (if c.column = 0 && c.sees '\ufeff' then c.skip 1 else c)
          (if c'.column = 0 && c'.sees '\ufeff' then c'.skip 1 else c') := by
    rw [h.column, ← h.sees_eq (by decide : isBreak '\ufeff' = false) fun _ => ⟨by decide, by decide⟩]
    split
    next hsees =>
      rw [Bool.and_eq_true] at hsees
      obtain ⟨q, hq, htogether, -⟩ := h.skip_mark hsees.2 (by decide) (by decide)
      exact ⟨q, hq, htogether⟩
    next => exact ⟨p, h, .refl c c'⟩
  obtain ⟨q, hq, htogether⟩ := hmark
  have hclear : q.Clear fun x => x = ' ' || (tabs && x = '\t') := by
    refine .inr (.inr ⟨fun x hx => ?_, by cases tabs <;> decide⟩)
    have hspace := not_isSpace_of_isDigit hx
    simp only [isSpace, Bool.or_eq_false_iff, decide_eq_false_iff_not] at hspace
    simp [hspace.1, hspace.2]
  obtain ⟨-, r, hr, hmoved, -⟩ := hq.skipWhile (isBlank_of_isBreak tabs) hclear
  obtain ⟨t, ht, hmoved'⟩ := hr.skipComment
  exact ⟨t, ht, (htogether.trans hmoved).trans hmoved'⟩

theorem skipToToken_aligned {fuel fuel' : Nat} (h : ScannersAligned p s s')
    (hf : s.cursor.rest.length < fuel) (hf' : s'.cursor.rest.length < fuel') :
    GoOn (s.skipToToken fuel) (s'.skipToToken fuel') := by
  induction fuel generalizing p s s' fuel' with
  | zero => omega
  | succ fuel ih =>
    obtain ⟨fuel', rfl⟩ : ∃ n, fuel' = n + 1 := ⟨fuel' - 1, by omega⟩
    rw [skipToToken_succ, skipToToken_succ, h.inFlow, h.keyAllowed]
    generalize (s'.inFlow || !s'.keyAllowed) = tabs
    obtain ⟨q, hq, htogether⟩ := passBlanks_aligned h.paired tabs
    have hlength := (advances_passBlanks tabs s.cursor).length_le
    have hlength' := (advances_passBlanks tabs s'.cursor).length_le
    rw [hq.any_isBreak]
    split
    next hbreak =>
      have hshorter := length_readBreak_lt (hq.any_isBreak.trans hbreak)
      have hshorter' := length_readBreak_lt hbreak
      obtain ⟨-, r, hr, hmoved, -⟩ := hq.readBreak
      refine ih (h.move hr (htogether.trans hmoved) _) ?_ ?_
      · exact Nat.lt_of_lt_of_le hshorter (by omega)
      · exact Nat.lt_of_lt_of_le hshorter' (by omega)
    next => exact ⟨q, h.goto hq htogether⟩

theorem freshKey_aligned {key key' : Option PossibleKey} (h : Option.Rel (KeyAligned c c') key key') :
    Both (Option.Rel (KeyAligned c c')) (freshKey c key) (freshKey c' key') := by
  cases h with
  | none => exact .ok .none
  | @some key key' h =>
    have hstale : (key.line < c.line ∨ key.offset + 1024 < c.offset) ↔
        (key'.line < c'.line ∨ key'.offset + 1024 < c'.offset) := by
      have hplace := h.place
      omega
    unfold freshKey
    dsimp only
    rw [if_congr hstale rfl rfl, h.required]
    refine .ite (fun _ => .ite (fun _ => .error_left _ _) fun _ => .ok .none) fun _ => ?_
    exact .ok (.some h)

theorem freshKeys_aligned {keys keys' : List (Option PossibleKey)}
    (h : List.Forall₂ (Option.Rel (KeyAligned c c')) keys keys') :
    Both (List.Forall₂ (Option.Rel (KeyAligned c c'))) (keys.mapM (freshKey c))
      (keys'.mapM (freshKey c')) := by
  induction h with
  | nil => exact .ok .nil
  | cons hkey _ ih =>
    rw [List.mapM_cons, List.mapM_cons]
    refine (freshKey_aligned hkey).bind fun _ _ hfresh => ih.bind fun _ _ hrest => ?_
    exact .ok (.cons hfresh hrest)

theorem dropStaleKeys_aligned (h : ScannersAligned p s s') :
    Both (ScannersAligned p) s.dropStaleKeys s'.dropStaleKeys :=
  (freshKeys_aligned h.outerKeys).bind fun _ _ houter =>
    (freshKey_aligned h.possibleKey).bind fun _ _ hkey => .ok (h.of_keys hkey houter)

end

end RamlDoc.Yaml.Scanner
