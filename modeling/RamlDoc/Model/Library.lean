import RamlDoc.Model.Template

/-!
# Libraries

The declarations that documents and libraries hold alike, and libraries, which may use further
libraries.
-/

namespace RamlDoc

/-- The named declarations of a document or a library. -/
structure Declarations where
  types : Block TypeDeclaration := none
  traits : Block TraitDefinition := none
  resourceTypes : Block ResourceType := none
  annotationTypes : Block AnnotationType := none
  securitySchemes : Block SecurityScheme := none
deriving DecidableEq, Repr

/-- A library. -/
structure Library where
  /-- The name under which the library is used. -/
  identifier : String
  usage : Option String := none
  declarations : Declarations := {}
  uses : Option (List Library) := none
deriving Repr

namespace Library

mutual

/-- Identity of libraries is decidable. -/
def decEq : (a b : Library) → Decidable (a = b)
  | ⟨i, u, d, ls⟩, ⟨i', u', d', ls'⟩ =>
    match decEqBlock ls ls' with
    | isTrue h => decidable_of_iff (i = i' ∧ u = u' ∧ d = d') (by simp [h])
    | isFalse h => isFalse (by simp [h])

/-- Identity of the libraries that a node uses is decidable. -/
def decEqBlock : (as bs : Option (List Library)) → Decidable (as = bs)
  | none, none => isTrue rfl
  | none, some _ => isFalse (by simp)
  | some _, none => isFalse (by simp)
  | some as, some bs =>
    match decEqList as bs with
    | isTrue h => isTrue (by rw [h])
    | isFalse h => isFalse (by simpa using h)

/-- Identity of lists of libraries is decidable. -/
def decEqList : (as bs : List Library) → Decidable (as = bs)
  | [], [] => isTrue rfl
  | [], _ :: _ => isFalse (by simp)
  | _ :: _, [] => isFalse (by simp)
  | a :: as, b :: bs =>
    match decEq a b, decEqList as bs with
    | isTrue h, isTrue hs => isTrue (by rw [h, hs])
    | isFalse h, _ => isFalse (by simp [h])
    | _, isFalse hs => isFalse (by simp [hs])

end

instance : DecidableEq Library := decEq

end Library

end RamlDoc
