import RamlDoc.Proofs.ScalarsAdvance
import RamlDoc.Proofs.ScalarsAligned
import RamlDoc.Yaml.Token.Scanner

/-!
# Anchors, tags and directives in aligned texts

None of them reaches a decimal that one of the texts has in quotes, for such a decimal stands behind
a colon and a blank.
-/

namespace RamlDoc.Yaml.Scanner

open Cursor

/-- What two readings of a value tell: the values are the same, and the cursors behind them are
paired in a phase of some kind. -/
structure ReadAligned {α : Type} (P : Phase → Prop) (c c' : Cursor) (r r' : α × Cursor) : Prop where
  value : r.1 = r'.1
  paired : ∃ q, P q ∧ Paired q r.2 r'.2
  together : Together c c' r.2 r'.2

theorem ReadAligned.after {α : Type} {P : Phase → Prop} {c c' d d' : Cursor} {r r' : α × Cursor}
    (htogether : Together c c' d d') (h : ReadAligned P d d' r r') : ReadAligned P c c' r r' :=
  ⟨h.value, h.paired, htogether.trans h.together⟩

theorem ReadAligned.imp {α : Type} {P Q : Phase → Prop} {c c' : Cursor} {r r' : α × Cursor}
    (h : ReadAligned P c c' r r') (hPQ : ∀ q, P q → Q q) : ReadAligned Q c c' r r' := by
  obtain ⟨hvalue, ⟨q, hP, hq⟩, htogether⟩ := h
  exact ⟨hvalue, ⟨q, hPQ q hP, hq⟩, htogether⟩

/-- The colon in front of a decimal in quotes is not yet passed, or just passed. -/
def Short (p : Phase) : Prop := p ≠ .gap

theorem short_of_near {p : Phase} (h : p.near = true) : Short p := by
  rintro rfl
  cases h

variable {p : Phase} {c c' d d' : Cursor} {fuel fuel' : Nat} {verbatim : Bool} {before : TagText}

theorem near_of_passes {q : Phase} {x : Char} (h : p.Passes x q) (hx : isSpace x = false) :
    p.near = true := by
  rcases h with ⟨hp, -⟩ | ⟨-, hspace, -⟩
  · exact hp
  · rw [hx] at hspace
    cases hspace

theorem isNameChar_of_isBreak (x : Char) (h : isBreak x = true) : isNameChar x = false :=
  eq_false_of_isBreak (by decide) h

/-- Whether a character may follow the name of an anchor. -/
def endsAnchor (x : Char) : Bool := x ∈ ['?', ':', ',', ']', '\x7d', '%', '@', '\x60']

theorem name_aligned (h : Paired p c c') (hp : p.near = true) :
    c.takeWhile isNameChar = c'.takeWhile isNameChar ∧
      ∃ q, q.near = true ∧ Paired q (c.skipWhile isNameChar) (c'.skipWhile isNameChar) ∧
        Together c c' (c.skipWhile isNameChar) (c'.skipWhile isNameChar) := by
  obtain ⟨hname, q, hq, htogether, hnear⟩ := h.skipWhile isNameChar_of_isBreak
    (.inr (.inl ⟨hp, by decide⟩))
  exact ⟨hname, q, hnear hp (by decide), hq, htogether⟩

theorem readAnchor_aligned (h : Paired p c c') (hp : p.near = true) :
    Both (ReadAligned Short c c') (readAnchor c) (readAnchor c') := by
  obtain ⟨hname, q, hnear, hq, htogether⟩ := name_aligned h hp
  have hbreak : ∀ x, isBreak x = true → endsAnchor x = false := fun x hx =>
    eq_false_of_isBreak (by decide) hx
  have hmarks : (c.skipWhile isNameChar).peek?.any endsAnchor =
      (c'.skipWhile isNameChar).peek?.any endsAnchor := by
    refine hq.peek_eq (f := fun x? => x?.any endsAnchor) (fun x y hx hy => ?_) fun x hgap => ?_
    · exact (hbreak x hx).trans (hbreak y hy).symm
    · rw [hgap] at hnear
      cases hnear
  unfold endsAnchor at hmarks
  unfold readAnchor
  dsimp only
  rw [skip_takeWhile, skip_takeWhile, hname, hq.blankAt_zero_eq, hmarks]
  split
  · exact .error_left _ _
  · exact .ok ⟨rfl, ⟨q, short_of_near hnear, hq⟩, htogether⟩

/-! ## Tags -/

theorem escapedByte?_eq_some {cs rest : List Char} {byte : Nat}
    (h : escapedByte? cs = some (byte, rest)) :
    ∃ a b, cs = '%' :: a :: b :: rest ∧ Scalar.digits? 16 [a, b] = some byte := by
  unfold escapedByte? at h
  split at h
  next a b rest' =>
    obtain ⟨byte', hbyte, heq⟩ := Option.map_eq_some_iff.1 h
    obtain ⟨rfl, rfl⟩ := Prod.mk.inj heq
    exact ⟨a, b, rfl, hbyte⟩
  next => cases h

theorem isInner_of_escapedByte {a b : Char} {byte : Nat}
    (h : Scalar.digits? 16 [a, b] = some byte) : ∀ x ∈ ['%', a, b], IsInner x := by
  intro x hx
  rcases List.mem_cons.1 hx with rfl | hx
  · exact ⟨by decide, by decide⟩
  · exact isInner_of_digits? h hx

/-- The escaped bytes of a code point are made of the characters that they take. -/
theorem escapedTail?_eq_some {count value n : Nat} {cs rest : List Char}
    (h : escapedTail? count value cs = some (n, rest)) :
    ∃ front, cs = front ++ rest ∧ front.length = 3 * count ∧ (∀ x ∈ front, IsInner x) ∧
      ∀ rest', escapedTail? count value (front ++ rest') = some (n, rest') := by
  induction count generalizing value cs with
  | zero =>
    obtain ⟨rfl, rfl⟩ := Prod.mk.inj (Option.some.inj h)
    exact ⟨[], rfl, rfl, nofun, fun _ => rfl⟩
  | succ count ih =>
    rw [escapedTail?] at h
    split at h
    next byte tail hbyte =>
      split at h
      next hrange =>
        obtain ⟨a, b, rfl, hdigits⟩ := escapedByte?_eq_some hbyte
        obtain ⟨front, rfl, hlength, hinner, hagain⟩ := ih h
        refine ⟨['%', a, b] ++ front, rfl, ?_, fun x hx => ?_, fun rest' => ?_⟩
        · rw [List.length_append, hlength]
          exact (Nat.mul_succ 3 count).symm ▸ Nat.add_comm _ _
        · rcases List.mem_append.1 hx with hx | hx
          · exact isInner_of_escapedByte hdigits x hx
          · exact hinner x hx
        · simp only [List.cons_append, List.nil_append, escapedTail?, escapedByte?, hdigits,
            Option.map_some, hrange, if_true, and_self, hagain]
      next => cases h
    next => cases h

theorem leadByte?_pos {byte length bits : Nat} (h : leadByte? byte = some (length, bits)) :
    0 < length := by
  unfold leadByte? at h
  split at h
  · obtain ⟨rfl, -⟩ := Prod.mk.inj (Option.some.inj h)
    decide
  split at h
  · obtain ⟨rfl, -⟩ := Prod.mk.inj (Option.some.inj h)
    decide
  split at h
  · obtain ⟨rfl, -⟩ := Prod.mk.inj (Option.some.inj h)
    decide
  split at h
  · obtain ⟨rfl, -⟩ := Prod.mk.inj (Option.some.inj h)
    decide
  · cases h

/-- An escaped character is made of the characters that it takes. -/
theorem escapedChar?_eq_some {cs : List Char} {y : Option Char} {count : Nat}
    (h : escapedChar? cs = some (y, count)) :
    ∃ front rest, cs = front ++ rest ∧ 0 < count ∧ front.length = count ∧
      (∀ x ∈ front, IsInner x) ∧ ∀ rest', escapedChar? (front ++ rest') = some (y, count) := by
  unfold escapedChar? at h
  split at h
  next => cases h
  next byte tail hbyte =>
    split at h
    next => cases h
    next length bits hlead =>
      obtain ⟨⟨n, rest⟩, htail, heq⟩ := Option.map_eq_some_iff.1 h
      obtain ⟨rfl, rfl⟩ := Prod.mk.inj heq
      obtain ⟨a, b, rfl, hdigits⟩ := escapedByte?_eq_some hbyte
      obtain ⟨front, rfl, hlength, hinner, hagain⟩ := escapedTail?_eq_some htail
      have hpos := leadByte?_pos hlead
      refine ⟨['%', a, b] ++ front, rest, rfl, by omega, ?_, fun x hx => ?_, fun rest' => ?_⟩
      · rw [List.length_append, hlength, Nat.mul_sub]
        change 3 + _ = _
        omega
      · rcases List.mem_append.1 hx with hx | hx
        · exact isInner_of_escapedByte hdigits x hx
        · exact hinner x hx
      · simp only [List.cons_append, List.nil_append, escapedChar?, escapedByte?, hdigits,
          Option.map_some, hlead, hagain]

theorem isTagChar_of_isBreak {x : Char} (h : isBreak x = true) : isTagChar verbatim x = false :=
  eq_false_of_isBreak (by cases verbatim <;> decide) h

theorem isSpace_of_isTagChar {x : Char} (h : isTagChar verbatim x = true) : isSpace x = false := by
  cases hx : isSpace x with
  | false => rfl
  | true =>
    rcases eq_of_isSpace hx with rfl | rfl <;> cases verbatim <;> revert h <;> decide

theorem readTagChars_aligned (h : Paired p c c') (hp : Short p) (hf : c.rest.length < fuel)
    (hf' : c'.rest.length < fuel') :
    Both (ReadAligned Short c c') (readTagChars verbatim fuel before c)
      (readTagChars verbatim fuel' before c') := by
  induction fuel generalizing p c c' before fuel' with
  | zero => omega
  | succ fuel ih =>
    obtain ⟨fuel', rfl⟩ : ∃ n, fuel' = n + 1 := ⟨fuel' - 1, by omega⟩
    have hstop : Both (ReadAligned Short c c')
        (.ok (before.reverse, c) : Except ReadError (TagText × Cursor))
        (.ok (before.reverse, c')) := .ok ⟨rfl, ⟨p, hp, h⟩, .refl c c'⟩
    cases h.heads with
    | ends hrest hrest' =>
      rw [readTagChars, readTagChars, peek?, peek?, hrest, hrest']
      exact hstop
    | @char x rest rest' q hrest hrest' hx hq hpaired htogether =>
      rw [readTagChars, readTagChars, peek?, peek?, hrest, hrest']
      dsimp only [List.head?_cons]
      split
      · exact hstop
      next htag =>
        rw [Bool.not_eq_true, Bool.not_eq_false'] at htag
        have hnear := near_of_passes hq (isSpace_of_isTagChar htag)
        split
        next hpercent =>
          cases hescape : escapedChar? (x :: rest) with
          | none => exact .error_left _ _
          | some found =>
            obtain ⟨y, count⟩ := found
            obtain ⟨front, tail, heq, hpos, hcount, hinner, hagain⟩ := escapedChar?_eq_some hescape
            obtain ⟨⟨tail', heq'⟩, ⟨r, hr, hnear'⟩, hmoved⟩ := h.run hnear (hrest.trans heq) hinner
            rw [hrest'] at heq'
            rw [heq', hagain tail']
            rw [hcount] at hr hmoved
            have hlength := length_skip_lt hrest hpos
            have hlength' := length_skip_lt hrest' hpos
            exact (ih hr (short_of_near hnear') (by omega) (by omega)).mono fun _ _ => .after hmoved
        next =>
          have hshort : Short q := by
            rcases hq with ⟨-, hq | ⟨-, rfl⟩, -⟩ | ⟨hfalse, -⟩
            · exact short_of_near hq
            · exact Phase.noConfusion
            · rw [hnear] at hfalse
              cases hfalse
          have hlength := length_skip_lt hrest Nat.one_pos
          have hlength' := length_skip_lt hrest' Nat.one_pos
          exact (ih hpaired hshort (by omega) (by omega)).mono fun _ _ => .after htogether
    | «break» hb hb' =>
      obtain ⟨x, rest, hrest, hx⟩ := hb.head
      obtain ⟨y, rest', hrest', hy⟩ := hb'.head
      rw [readTagChars, readTagChars, peek?, peek?, hrest, hrest']
      dsimp only [List.head?_cons]
      rw [isTagChar_of_isBreak hx, isTagChar_of_isBreak hy]
      exact hstop
    | seam hgap => exact absurd hgap hp

theorem readTagText_eq (head : List Char) (c : Cursor) : readTagText verbatim head c =
    readTagChars verbatim c.rounds [] c >>= fun chars =>
      if head.isEmpty && chars.1.isEmpty then .error .malformedTag
      else .ok (((head.drop 1).map some ++ chars.1).takeWhile (· ≠ some '\x00'), chars.2) := by
  unfold readTagText
  congr 1

theorem readTagText_aligned (h : Paired p c c') (hp : Short p) (head : List Char) :
    Both (ReadAligned Short c c') (readTagText verbatim head c) (readTagText verbatim head c') := by
  rw [readTagText_eq, readTagText_eq]
  refine (readTagChars_aligned h hp h.valid.length_lt_rounds h.valid'.length_lt_rounds).bind ?_
  rintro ⟨text, d⟩ ⟨text', d'⟩ ⟨hvalue, hpaired, htogether⟩
  obtain rfl : text = text' := hvalue
  dsimp only
  split
  · exact .error_left _ _
  · exact .ok ⟨rfl, hpaired, htogether⟩

theorem readTagHandle_aligned (h : Paired p c c') (hp : p.near = true) :
    Both (ReadAligned (fun q => q.near = true) c c') (readTagHandle c) (readTagHandle c') := by
  have hskip : ∀ c : Cursor, c.skip (((c.skip 1).takeWhile isNameChar).length + 1) =
      (c.skip 1).skipWhile isNameChar := by
    intro c
    rw [Cursor.skipWhile, skip_skip, Nat.add_comm]
  unfold readTagHandle
  dsimp only
  rw [hskip, hskip, ← h.sees_eq (by decide : isBreak '!' = false) fun _ => by decide]
  cases hsees : c.sees '!' with
  | false => exact .error_left _ _
  | true =>
    obtain ⟨q, hq, htogether, hpasses⟩ := h.skip_mark hsees (by decide) (by decide)
    obtain ⟨hname, r, hnear, hr, hmoved⟩ := name_aligned hq (hpasses.near hp (by decide))
    rw [← hname, ← hr.sees_eq (by decide : isBreak '!' = false) fun _ => by decide]
    split
    · contradiction
    split
    next hmark =>
      obtain ⟨s, hs, hmoved', hpasses'⟩ := hr.skip_mark hmark (by decide) (by decide)
      exact .ok ⟨rfl, ⟨s, hpasses'.near hnear (by decide), hs⟩,
        (htogether.trans hmoved).trans hmoved'⟩
    next => exact .ok ⟨rfl, ⟨r, hnear, hr⟩, htogether.trans hmoved⟩

theorem getElem?_one (c : Cursor) : c.rest[1]? = (c.skip 1).peek? := by
  rw [peek?, skip, List.head?_drop]

/-- The handle and the suffix of a tag. -/
def readTagParts (c : Cursor) : Except ReadError (List Char × TagText × Cursor) :=
  if (c.skip 1).sees '<' then
    readTagText true [] (c.skip 2) >>= fun suffix =>
      if suffix.2.sees '>' then .ok ([], suffix.1, suffix.2.skip 1) else .error .malformedTag
  else
    readTagHandle c >>= fun handle =>
      if 1 < handle.1.length && handle.1.getLast? = some '!' then
        readTagText false [] handle.2 >>= fun suffix => .ok (handle.1, suffix.1, suffix.2)
      else
        readTagText false handle.1 handle.2 >>= fun suffix =>
          .ok (if suffix.1.isEmpty then ([], [some '!'], suffix.2) else (['!'], suffix.1, suffix.2))

/-- The token of a tag, which a blank ends, or a comma in a flow collection. -/
def closeTag (flow : Bool) (parts : List Char × TagText × Cursor) :
    Except ReadError (Token × Cursor) :=
  if !(flow && parts.2.2.sees ',') && !parts.2.2.blankAt 0 then .error .malformedTag
  else .ok (.tag (String.ofList parts.1) parts.2.1, parts.2.2)

theorem readTag_eq (flow : Bool) (c : Cursor) :
    readTag flow c = readTagParts c >>= closeTag flow := by
  have hangle : ∀ c : Cursor, (c.sees '<' = true) = (c.peek? = some '<') := fun _ =>
    decide_eq_true_eq
  unfold readTag readTagParts closeTag
  simp only [getElem?_one, hangle, pure_eq_ok, ok_bind, error_bind, throw_bind, ite_bind,
    ite_not_eq_true, bind_assoc]

theorem readTagParts_aligned (h : Paired p c c') (hp : p.near = true) (hsees : c.sees '!' = true) :
    Both (fun r r' => r.1 = r'.1 ∧ ReadAligned Short c c' r.2 r'.2) (readTagParts c)
      (readTagParts c') := by
  unfold readTagParts
  obtain ⟨q, hq, htogether, hpasses⟩ := h.skip_mark hsees (by decide) (by decide)
  have hnear := hpasses.near hp (by decide)
  rw [← hq.sees_eq (by decide : isBreak '<' = false) fun _ => by decide]
  split
  next hangle =>
    obtain ⟨r, hr, hmoved, hpasses'⟩ := hq.skip_mark hangle (by decide) (by decide)
    rw [skip_skip, skip_skip] at hr hmoved
    have hshort := short_of_near (hpasses'.near hnear (by decide))
    refine (readTagText_aligned hr hshort []).bind ?_
    rintro ⟨suffix, d⟩ ⟨suffix', d'⟩ ⟨hvalue, ⟨s, hs, hpaired⟩, hmoved'⟩
    obtain rfl : suffix = suffix' := hvalue
    dsimp only at *
    rw [← hpaired.sees_eq (by decide : isBreak '>' = false) fun _ => by decide]
    split
    next hclose =>
      obtain ⟨t, ht, hmoved₃, hpasses₃⟩ := hpaired.skip_mark hclose (by decide) (by decide)
      refine .ok ⟨rfl, rfl, ⟨t, ?_, ht⟩, ((htogether.trans hmoved).trans hmoved').trans hmoved₃⟩
      have hnear₃ := near_of_passes hpasses₃ (by decide)
      exact short_of_near (hpasses₃.near hnear₃ (by decide))
    next => exact .error_left _ _
  next =>
    refine (readTagHandle_aligned h hp).bind ?_
    rintro ⟨handle, d⟩ ⟨handle', d'⟩ ⟨hvalue, ⟨s, hs, hpaired⟩, hmoved⟩
    obtain rfl : handle = handle' := hvalue
    dsimp only at *
    split
    · refine (readTagText_aligned hpaired (short_of_near hs) []).bind ?_
      rintro ⟨suffix, e⟩ ⟨suffix', e'⟩ hsuffix
      obtain rfl : suffix = suffix' := hsuffix.value
      exact .ok ⟨rfl, rfl, hsuffix.paired, hmoved.trans hsuffix.together⟩
    · refine (readTagText_aligned hpaired (short_of_near hs) handle).bind ?_
      rintro ⟨suffix, e⟩ ⟨suffix', e'⟩ hsuffix
      obtain rfl : suffix = suffix' := hsuffix.value
      dsimp only
      split
      · exact .ok ⟨rfl, rfl, hsuffix.paired, hmoved.trans hsuffix.together⟩
      · exact .ok ⟨rfl, rfl, hsuffix.paired, hmoved.trans hsuffix.together⟩

theorem readTag_aligned {flow : Bool} (h : Paired p c c') (hp : p.near = true)
    (hsees : c.sees '!' = true) :
    Both (ReadAligned Short c c') (readTag flow c) (readTag flow c') := by
  rw [readTag_eq, readTag_eq]
  refine (readTagParts_aligned h hp hsees).bind ?_
  rintro ⟨handle, suffix, d⟩ ⟨handle', suffix', d'⟩ ⟨hhandle, hsuffix⟩
  obtain rfl : handle = handle' := hhandle
  obtain rfl : suffix = suffix' := hsuffix.value
  obtain ⟨-, ⟨q, hshort, hq⟩, htogether⟩ := hsuffix
  unfold closeTag
  dsimp only at *
  rw [hq.blankAt_zero_eq, hq.sees_eq (by decide : isBreak ',' = false) fun _ => by decide]
  split
  · exact .error_left _ _
  · exact .ok ⟨rfl, ⟨q, hshort, hq⟩, htogether⟩

/-! ## Directives -/

theorem readVersionNumber_aligned (h : Paired p c c') (hp : p.near = true) :
    Both (ReadAligned (fun q => q.near = true) c c') (readVersionNumber c)
      (readVersionNumber c') := by
  obtain ⟨hdigits, q, hq, htogether, hnear⟩ := h.skipWhile isDigit_of_isBreak
    (.inr (.inl ⟨hp, by decide⟩))
  unfold readVersionNumber
  dsimp only
  rw [hdigits]
  split
  · exact .error_left _ _
  split
  · refine .ok ⟨rfl, ⟨q, hnear hp (by decide), ?_⟩, ?_⟩
    · rwa [Cursor.skipWhile, Cursor.skipWhile, hdigits] at hq
    · rwa [Cursor.skipWhile, Cursor.skipWhile, hdigits] at htogether
  · exact .error_left _ _

/-- The token of a directive with a given name, read behind the name. -/
def directiveToken (name : List Char) (c : Cursor) : Except ReadError (Token × Cursor) :=
  if name = "YAML".toList then
    readVersionNumber c >>= fun major =>
      if major.2.sees '.' then
        readVersionNumber (major.2.skip 1) >>= fun minor =>
          .ok (.versionDirective major.1 minor.1, minor.2)
      else .error .malformedDirective
  else if name = "TAG".toList then
    readTagHandle c >>= fun handle =>
      if handle.1 ≠ ['!'] && !(1 < handle.1.length && handle.1.getLast? = some '!') then
        .error .malformedTag
      else if handle.2.peek?.any isSpace then
        readTagText true [] (handle.2.skipWhile isSpace) >>= fun expansion =>
          if expansion.2.blankAt 0 then
            .ok (.tagDirective (String.ofList handle.1) expansion.1, expansion.2)
          else .error .malformedDirective
      else .error .malformedDirective
  else .error .malformedDirective

/-- The end of the line of a directive, which at most a comment comes before. -/
def closeDirective (read : Token × Cursor) : Except ReadError (Token × Cursor) :=
  if (read.2.skipWhile isSpace).skipComment.atLineEnd then
    .ok (read.1, (read.2.skipWhile isSpace).skipComment.skipBreak)
  else .error .malformedDirective

theorem readDirective_eq (c : Cursor) : readDirective c =
    if ((c.skip 1).takeWhile isNameChar).isEmpty || !((c.skip 1).skipWhile isNameChar).blankAt 0 then
      .error .malformedDirective
    else
      directiveToken ((c.skip 1).takeWhile isNameChar)
        (((c.skip 1).skipWhile isNameChar).skipWhile isSpace) >>= closeDirective := by
  unfold readDirective directiveToken closeDirective
  simp only [skip_takeWhile, pure_eq_ok, ok_bind, error_bind, throw_bind, ite_bind,
    ite_not_eq_true, bind_assoc]

theorem directiveToken_aligned (h : Paired p c c') (hp : p.near = true) (name : List Char) :
    Both (ReadAligned Short c c') (directiveToken name c) (directiveToken name c') := by
  unfold directiveToken
  split
  · refine (readVersionNumber_aligned h hp).bind ?_
    rintro ⟨major, d⟩ ⟨major', d'⟩ ⟨hvalue, ⟨q, hq, hpaired⟩, htogether⟩
    obtain rfl : major = major' := hvalue
    dsimp only at *
    rw [← hpaired.sees_eq (by decide : isBreak '.' = false) fun _ => by decide]
    split
    next hpoint =>
      obtain ⟨r, hr, hmoved, hpasses⟩ := hpaired.skip_mark hpoint (by decide) (by decide)
      refine (readVersionNumber_aligned hr (hpasses.near hq (by decide))).bind ?_
      rintro ⟨minor, e⟩ ⟨minor', e'⟩ ⟨hvalue, ⟨s, hs, hpaired'⟩, hmoved'⟩
      obtain rfl : minor = minor' := hvalue
      exact .ok ⟨rfl, ⟨s, short_of_near hs, hpaired'⟩, (htogether.trans hmoved).trans hmoved'⟩
    next => exact .error_left _ _
  split
  · refine (readTagHandle_aligned h hp).bind ?_
    rintro ⟨handle, d⟩ ⟨handle', d'⟩ ⟨hvalue, ⟨q, hq, hpaired⟩, htogether⟩
    obtain rfl : handle = handle' := hvalue
    dsimp only at *
    rw [← hpaired.any_isSpace]
    split
    · exact .error_left _ _
    split
    next =>
      obtain ⟨-, r, hr, hmoved, hnear⟩ := hpaired.skipWhile isSpace_of_isBreak
        (.inr (.inl ⟨hq, by decide⟩))
      refine (readTagText_aligned hr (short_of_near (hnear hq (by decide))) []).bind ?_
      rintro ⟨expansion, e⟩ ⟨expansion', e'⟩ ⟨hvalue, ⟨s, hs, hpaired'⟩, hmoved'⟩
      obtain rfl : expansion = expansion' := hvalue
      dsimp only at *
      rw [hpaired'.blankAt_zero_eq]
      split
      · exact .ok ⟨rfl, ⟨s, hs, hpaired'⟩, (htogether.trans hmoved).trans hmoved'⟩
      · exact .error_left _ _
    next => exact .error_left _ _
  · exact .error_left _ _

theorem closeDirective_aligned (token : Token) (h : Paired p c c') :
    Both (ReadAligned (fun _ => True) c c') (closeDirective (token, c))
      (closeDirective (token, c')) := by
  unfold closeDirective
  obtain ⟨-, q, hq, htogether, -⟩ := h.skipWhile isSpace_of_isBreak
    (.inr (.inr ⟨fun x => not_isSpace_of_isDigit, by decide⟩))
  obtain ⟨r, hr, hmoved⟩ := hq.skipComment
  dsimp only
  rw [hr.atLineEnd_eq]
  split
  · obtain ⟨-, s, hs, hmoved', -⟩ := hr.readBreak
    exact .ok ⟨rfl, ⟨s, trivial, hs⟩, (htogether.trans hmoved).trans hmoved'⟩
  · exact .error_left _ _

/-- A directive, behind its percent sign. -/
theorem readDirective_aligned (h : Paired p (c.skip 1) (c'.skip 1)) (hp : p.near = true) :
    Both (ReadAligned (fun _ => True) (c.skip 1) (c'.skip 1)) (readDirective c)
      (readDirective c') := by
  rw [readDirective_eq, readDirective_eq]
  obtain ⟨hname, r, hnear, hr, hmoved⟩ := name_aligned h hp
  rw [hname, hr.blankAt_zero_eq]
  split
  · exact .error_left _ _
  obtain ⟨-, s, hs, hmoved', hnear'⟩ := hr.skipWhile isSpace_of_isBreak
    (.inr (.inl ⟨hnear, by decide⟩))
  refine (directiveToken_aligned hs (hnear' hnear (by decide)) _).bind ?_
  rintro ⟨token, d⟩ ⟨token', d'⟩ ⟨hvalue, ⟨t, -, ht⟩, hmoved₃⟩
  obtain rfl : token = token' := hvalue
  exact (closeDirective_aligned token ht).mono fun _ _ =>
    .after ((hmoved.trans hmoved').trans hmoved₃)

end RamlDoc.Yaml.Scanner
