/-!
# Lines

A text is cut into lines at line feeds; a carriage return just before a line feed belongs to the
line end. The text after the last line feed is a line unless it is empty. A text may also be cut at
every occurrence of a character, which `joinWith_splitOn` undoes, or at the first one only.
-/

namespace RamlDoc.Text

/-- A line without a carriage return at its end. -/
def dropReturn (line : List Char) : List Char :=
  if line.getLast? = some '\r' then line.dropLast else line

/-- The lines of a text, given the part of the current line already read, last character first. -/
def linesFrom (before : List Char) : List Char → List (List Char)
  | [] => if before.isEmpty then [] else [before.reverse]
  | c :: rest =>
    if c = '\n' then dropReturn before.reverse :: linesFrom [] rest
    else linesFrom (c :: before) rest

/-- The lines of a text. -/
def lines (cs : List Char) : List (List Char) := linesFrom [] cs

/-- The first line of a text, empty if there is none. -/
def firstLine (cs : List Char) : List Char := (lines cs).headD []

/-- The pieces of a text between the occurrences of a character: one more than there are
occurrences. -/
def splitOn (separator : Char) : List Char → List (List Char)
  | [] => [[]]
  | c :: rest =>
    if c = separator then [] :: splitOn separator rest
    else
      match splitOn separator rest with
      | [] => [[c]]
      | piece :: pieces => (c :: piece) :: pieces

/-- What stands before and after the first occurrence of a mark, if there is one. -/
def cutAt? (mark : Char) : List Char → Option (List Char × List Char)
  | [] => none
  | c :: rest =>
    if c = mark then some ([], rest)
    else (cutAt? mark rest).map fun (before, after) => (c :: before, after)

/-- What stands before and after the first occurrence of a mark does not hold the mark before it. -/
theorem cutAt?_eq_some {mark : Char} {cs before after : List Char} :
    cutAt? mark cs = some (before, after) ↔ cs = before ++ mark :: after ∧ mark ∉ before := by
  induction cs generalizing before with
  | nil => simp [cutAt?]
  | cons c cs ih =>
    by_cases hc : c = mark
    · subst hc
      cases before with
      | nil => simp [cutAt?, eq_comm]
      | cons b before => simp +contextual [cutAt?]
    · cases before with
      | nil => simp [cutAt?, hc]
      | cons b before =>
        simp only [cutAt?, hc, if_false, Option.map_eq_some_iff, Prod.exists, Prod.mk.injEq,
          List.cons.injEq, List.mem_cons, not_or, List.cons_append]
        constructor
        · rintro ⟨_, _, h, ⟨rfl, rfl⟩, rfl⟩
          have := ih.1 h
          exact ⟨⟨rfl, this.1⟩, Ne.symm hc, this.2⟩
        · rintro ⟨⟨rfl, h⟩, _, hm⟩
          exact ⟨before, after, ih.2 ⟨h, hm⟩, ⟨rfl, rfl⟩, rfl⟩

/-- A mark is absent exactly when there is no first occurrence of it. -/
theorem cutAt?_eq_none {mark : Char} {cs : List Char} : cutAt? mark cs = none ↔ mark ∉ cs := by
  induction cs with
  | nil => simp [cutAt?]
  | cons c cs ih =>
    by_cases hc : c = mark
    · simp [cutAt?, hc]
    · simp [cutAt?, hc, ih, Ne.symm hc]

/-- What stands after a mark is shorter. -/
theorem length_of_cutAt? {mark : Char} {cs before after : List Char}
    (h : cutAt? mark cs = some (before, after)) : after.length < cs.length := by
  have := congrArg List.length (cutAt?_eq_some.1 h).1
  simp only [List.length_append, List.length_cons] at this
  omega

/-- The pieces of text joined by a separator. -/
def joinWith (separator : List Char) : List (List Char) → List Char
  | [] => []
  | [piece] => piece
  | piece :: pieces => piece ++ separator ++ joinWith separator pieces

/-- A text has at least one piece. -/
theorem splitOn_ne_nil (separator : Char) (cs : List Char) : splitOn separator cs ≠ [] := by
  cases cs with
  | nil => simp [splitOn]
  | cons c cs =>
    simp only [splitOn]
    split
    · simp
    · split <;> simp

/-- No piece holds the separator. -/
theorem not_mem_of_mem_splitOn {separator : Char} {cs piece : List Char}
    (h : piece ∈ splitOn separator cs) : separator ∉ piece := by
  induction cs generalizing piece with
  | nil => simp_all [splitOn]
  | cons c cs ih =>
    simp only [splitOn] at h
    split at h
    next hc =>
      rcases List.mem_cons.1 h with rfl | h
      · simp
      · exact ih h
    next hc =>
      cases hcs : splitOn separator cs with
      | nil => exact absurd hcs (splitOn_ne_nil separator cs)
      | cons first rest =>
        simp only [hcs] at h
        rcases List.mem_cons.1 h with rfl | h
        · have := ih (hcs ▸ List.mem_cons_self)
          simp [Ne.symm hc, this]
        · exact ih (hcs ▸ List.mem_cons_of_mem first h)

/-- The pieces between the occurrences of a character, joined by it, are the text. -/
theorem joinWith_splitOn (separator : Char) (cs : List Char) :
    joinWith [separator] (splitOn separator cs) = cs := by
  induction cs with
  | nil => rfl
  | cons c cs ih =>
    simp only [splitOn]
    cases hcs : splitOn separator cs with
    | nil => exact absurd hcs (splitOn_ne_nil separator cs)
    | cons first rest =>
      rw [hcs] at ih
      split
      next hc => simp [joinWith, ih, hc]
      next hc => cases rest <;> simp_all [joinWith]

theorem joinWith_cons_cons (separator first second : List Char) (pieces : List (List Char)) :
    joinWith separator (first :: second :: pieces) =
      first ++ separator ++ joinWith separator (second :: pieces) := rfl

theorem joinWith_append_singleton (separator piece : List Char) {pieces : List (List Char)}
    (h : pieces ≠ []) :
    joinWith separator (pieces ++ [piece]) = joinWith separator pieces ++ separator ++ piece := by
  induction pieces with
  | nil => exact absurd rfl h
  | cons first pieces ih =>
    cases pieces with
    | nil => rfl
    | cons second pieces =>
      rw [List.cons_append, List.cons_append, joinWith_cons_cons, ← List.cons_append,
        ih (List.cons_ne_nil _ _), joinWith_cons_cons]
      simp only [List.append_assoc]

theorem mem_joinWith {separator piece : List Char} {pieces : List (List Char)} {c : Char}
    (h : piece ∈ pieces) (hc : c ∈ piece) : c ∈ joinWith separator pieces := by
  induction pieces with
  | nil => cases h
  | cons first pieces ih =>
    cases pieces with
    | nil => exact List.mem_singleton.1 h ▸ hc
    | cons next pieces =>
      rcases List.mem_cons.1 h with rfl | h
      · exact List.mem_append_left _ (List.mem_append_left _ hc)
      · exact List.mem_append_right _ (ih h)

/-- A piece holds characters of the text only. -/
theorem mem_of_mem_splitOn {separator c : Char} {cs piece : List Char}
    (h : piece ∈ splitOn separator cs) (hc : c ∈ piece) : c ∈ cs := by
  rw [← joinWith_splitOn separator cs]
  exact mem_joinWith h hc

theorem splitOn_of_not_mem {separator : Char} {piece : List Char} (h : separator ∉ piece) :
    splitOn separator piece = [piece] := by
  induction piece with
  | nil => rfl
  | cons c piece ih =>
    obtain ⟨hc, hpiece⟩ := not_or.1 (mt List.mem_cons.2 h)
    simp [splitOn, Ne.symm hc, ih hpiece]

/-- The first piece ends at the first separator. -/
theorem splitOn_append_cons {separator : Char} {piece : List Char} (h : separator ∉ piece)
    (rest : List Char) :
    splitOn separator (piece ++ separator :: rest) = piece :: splitOn separator rest := by
  induction piece with
  | nil => simp [splitOn]
  | cons c piece ih =>
    obtain ⟨hc, hpiece⟩ := not_or.1 (mt List.mem_cons.2 h)
    simp [splitOn, Ne.symm hc, ih hpiece]

/-- Pieces that do not hold the separator are found again in what they are joined to. -/
theorem splitOn_joinWith {separator : Char} {pieces : List (List Char)} (hne : pieces ≠ [])
    (h : ∀ piece ∈ pieces, separator ∉ piece) :
    splitOn separator (joinWith [separator] pieces) = pieces := by
  induction pieces with
  | nil => exact absurd rfl hne
  | cons piece pieces ih =>
    obtain ⟨hpiece, hpieces⟩ := List.forall_mem_cons.1 h
    cases pieces with
    | nil => exact splitOn_of_not_mem hpiece
    | cons next pieces =>
      rw [joinWith_cons_cons, List.append_assoc, List.singleton_append, splitOn_append_cons hpiece,
        ih (List.cons_ne_nil _ _) hpieces]

end RamlDoc.Text
