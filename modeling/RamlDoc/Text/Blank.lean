/-!
# Blank characters and trimming

A blank character is one with the Unicode property White_Space. Texts are trimmed of them at either
end. The narrower class of ASCII blanks serves the line patterns, which know ASCII only.
-/

namespace RamlDoc.Text

/-- Whether a character has the Unicode property White_Space. -/
def isBlank (c : Char) : Bool :=
  let n := c.toNat
  (0x9 ≤ n && n ≤ 0xD) || n = 0x20 || n = 0x85 || n = 0xA0 || n = 0x1680 ||
    (0x2000 ≤ n && n ≤ 0x200A) || n = 0x2028 || n = 0x2029 || n = 0x202F || n = 0x205F ||
    n = 0x3000

/-- Whether a character is one of the six ASCII blanks: tab, line feed, vertical tab, form feed,
carriage return and space. -/
def isAsciiBlank (c : Char) : Bool :=
  let n := c.toNat
  (0x9 ≤ n && n ≤ 0xD) || n = 0x20

/-- The text without the longest tail of characters that satisfy `p`. -/
def dropTailWhile (p : Char → Bool) (cs : List Char) : List Char :=
  (cs.reverse.dropWhile p).reverse

/-- The text without the blanks at its start. -/
def trimStart (cs : List Char) : List Char := cs.dropWhile isBlank

/-- The text without the blanks at its end. -/
def trimEnd (cs : List Char) : List Char := dropTailWhile isBlank cs

/-- The text without the blanks at both ends. -/
def trim (cs : List Char) : List Char := trimEnd (trimStart cs)

/-- `trim` on strings. -/
def trimmed (s : String) : String := String.ofList (trim s.toList)

/-- The number of bytes of a text in UTF-8. -/
def byteLength : List Char → Nat
  | [] => 0
  | c :: cs => c.utf8Size + byteLength cs

/-- The rest of a text after a given beginning, or nothing if it begins otherwise. -/
def afterStart? : (start : List Char) → (cs : List Char) → Option (List Char)
  | [], cs => some cs
  | _ :: _, [] => none
  | s :: start, c :: cs => if s = c then afterStart? start cs else none

/-- The text before a given ending, or nothing if it ends otherwise. -/
def beforeEnd? (ending cs : List Char) : Option (List Char) :=
  (afterStart? ending.reverse cs.reverse).map List.reverse

@[simp] theorem byteLength_cons (c : Char) (cs : List Char) :
    byteLength (c :: cs) = c.utf8Size + byteLength cs := rfl

@[simp] theorem byteLength_append (cs ds : List Char) :
    byteLength (cs ++ ds) = byteLength cs + byteLength ds := by
  induction cs with
  | nil => simp [byteLength]
  | cons c cs ih => rw [List.cons_append, byteLength_cons, byteLength_cons, ih, Nat.add_assoc]

theorem byteLength_dropWhile_le (p : Char → Bool) (cs : List Char) :
    byteLength (cs.dropWhile p) ≤ byteLength cs := by
  have hsplit := congrArg byteLength (List.takeWhile_append_dropWhile (p := p) (l := cs))
  rw [byteLength_append] at hsplit
  omega

/-- Characters of a class before one outside of it are just those that are taken from the start. -/
theorem takeWhile_append_of_head {p : Char → Bool} {cs rest : List Char}
    (hcs : ∀ c ∈ cs, p c = true) (hrest : ∀ c ∈ rest.head?, p c = false) :
    (cs ++ rest).takeWhile p = cs := by
  rw [List.takeWhile_append_of_pos hcs]
  cases rest with
  | nil => simp
  | cons c rest => rw [List.takeWhile_cons_of_neg (by simp [hrest c rfl]), List.append_nil]

theorem dropWhile_append_of_head {p : Char → Bool} {cs rest : List Char}
    (hcs : ∀ c ∈ cs, p c = true) (hrest : ∀ c ∈ rest.head?, p c = false) :
    (cs ++ rest).dropWhile p = rest := by
  rw [List.dropWhile_append_of_pos hcs]
  cases rest with
  | nil => rfl
  | cons c rest => exact List.dropWhile_cons_of_neg (by simp [hrest c rfl])

theorem isBlank_of_isAsciiBlank {c : Char} (h : isAsciiBlank c) : isBlank c := by
  simp only [isAsciiBlank, isBlank, Bool.or_eq_true] at h ⊢
  rcases h with h | h <;> simp [h]

/-- A text begins with `start` exactly when what follows `start` is the rest. -/
theorem afterStart?_eq_some {start cs rest : List Char} :
    afterStart? start cs = some rest ↔ cs = start ++ rest := by
  induction start generalizing cs with
  | nil => simp [afterStart?]
  | cons s start ih =>
    cases cs with
    | nil => simp [afterStart?]
    | cons c cs =>
      by_cases h : s = c
      · simp [afterStart?, h, ih]
      · simp [afterStart?, h, Ne.symm h]

/-- A text ends with `ending` exactly when it is what precedes it followed by `ending`. -/
theorem beforeEnd?_eq_some {ending cs front : List Char} :
    beforeEnd? ending cs = some front ↔ cs = front ++ ending := by
  simp only [beforeEnd?, Option.map_eq_some_iff, afterStart?_eq_some]
  constructor
  · rintro ⟨r, hr, rfl⟩
    simpa using congrArg List.reverse hr
  · rintro rfl
    exact ⟨front.reverse, by simp, by simp⟩

/-- A text ends otherwise exactly when the ending is no tail of it. -/
theorem beforeEnd?_eq_none {ending cs : List Char} :
    beforeEnd? ending cs = none ↔ ¬ending <:+ cs := by
  rw [Option.eq_none_iff_forall_ne_some]
  constructor
  · rintro h ⟨front, hfront⟩
    exact h front (beforeEnd?_eq_some.2 hfront.symm)
  · intro h front hfront
    exact h ⟨front, (beforeEnd?_eq_some.1 hfront).symm⟩

theorem trimStart_eq_self_iff {cs : List Char} :
    trimStart cs = cs ↔ ∀ c ∈ cs.head?, isBlank c = false := by
  cases cs with
  | nil => simp [trimStart]
  | cons c cs =>
    by_cases h : isBlank c
    · have hlength := (List.dropWhile_sublist isBlank (l := cs)).length_le
      have hne : trimStart (c :: cs) ≠ c :: cs := by
        intro heq
        have := congrArg List.length heq
        simp only [trimStart, List.dropWhile_cons, h, if_true, List.length_cons] at this
        omega
      simp [hne, h]
    · simp [trimStart, h]

theorem trimEnd_eq_self_iff {cs : List Char} :
    trimEnd cs = cs ↔ ∀ c ∈ cs.getLast?, isBlank c = false := by
  rw [← List.head?_reverse, ← trimStart_eq_self_iff]
  exact List.reverse_eq_iff

/-- A text is trimmed exactly when it neither starts nor ends with a blank. -/
theorem trim_eq_self_iff {cs : List Char} :
    trim cs = cs ↔ (∀ c ∈ cs.head?, isBlank c = false) ∧ ∀ c ∈ cs.getLast?, isBlank c = false := by
  rw [← trimStart_eq_self_iff, ← trimEnd_eq_self_iff, trim]
  constructor
  · intro h
    have hstart : trimStart cs <:+ cs := List.dropWhile_suffix isBlank
    have hend : (trimEnd (trimStart cs)).length ≤ (trimStart cs).length := by
      simpa [trimEnd, dropTailWhile] using
        (List.dropWhile_sublist isBlank (l := (trimStart cs).reverse)).length_le
    rw [h] at hend
    have heq := hstart.eq_of_length_le hend
    exact ⟨heq, by rwa [heq] at h⟩
  · rintro ⟨hstart, hend⟩
    rw [hstart, hend]

theorem head?_trimStart (cs : List Char) : ∀ c ∈ (trimStart cs).head?, isBlank c = false := by
  intro c hc
  rw [trimStart] at hc
  have := List.head?_dropWhile_not isBlank cs
  rwa [hc] at this

@[simp] theorem trimStart_trimStart (cs : List Char) : trimStart (trimStart cs) = trimStart cs :=
  trimStart_eq_self_iff.2 (head?_trimStart cs)

theorem getLast?_trimEnd (cs : List Char) : ∀ c ∈ (trimEnd cs).getLast?, isBlank c = false := by
  intro c hc
  rw [trimEnd, dropTailWhile, List.getLast?_reverse] at hc
  have := List.head?_dropWhile_not isBlank cs.reverse
  rwa [hc] at this

theorem head?_trimEnd {cs : List Char} {c : Char} (h : (trimEnd cs).head? = some c) :
    cs.head? = some c := by
  obtain ⟨tail, htail⟩ : trimEnd cs <+: cs := by
    simpa [trimEnd, dropTailWhile] using
      List.reverse_prefix.2 (List.dropWhile_suffix isBlank (l := cs.reverse))
  rw [← htail, List.head?_append, h, Option.some_or]

/-- Trimming a second time changes nothing. -/
@[simp] theorem trim_trim (cs : List Char) : trim (trim cs) = trim cs := by
  exact trim_eq_self_iff.2 ⟨fun c hc => head?_trimStart cs c (head?_trimEnd hc),
    getLast?_trimEnd _⟩

theorem mem_of_mem_trim {c : Char} {cs : List Char} (h : c ∈ trim cs) : c ∈ cs := by
  simp only [trim, trimEnd, dropTailWhile, trimStart, List.mem_reverse] at h
  exact (List.dropWhile_sublist _).subset (List.mem_reverse.1 ((List.dropWhile_sublist _).subset h))

end RamlDoc.Text
