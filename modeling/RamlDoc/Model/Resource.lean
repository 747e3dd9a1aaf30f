import RamlDoc.Model.Template

/-!
# Resources

The tree of resources. A resource's path continues that of the resource around it, and may have
template names in braces.
-/

namespace RamlDoc

/-- The names in braces in a text; empty ones do not count. -/
def templateNamesOf (text : List Char) : List String :=
  match _h : Text.cutAt? '\x7b' text with
  | none => []
  | some (_, rest) =>
    match _h' : Text.cutAt? '\x7d' rest with
    | none => []
    | some (name, rest) =>
      if name.isEmpty then templateNamesOf rest else String.ofList name :: templateNamesOf rest
termination_by text.length
decreasing_by
  all_goals
    have := Text.length_of_cutAt? _h
    have := Text.length_of_cutAt? _h'
    omega

/-- The template names of a path or URI. -/
def templateNames (text : String) : List String := templateNamesOf text.toList

/-- A resource. -/
structure Resource where
  /-- The path relative to the resource around it. -/
  path : String
  displayName : Option String := none
  description : Option String := none
  annotations : Block AnnotationUse := none
  methods : Block Method := none
  resources : Option (List Resource) := none
  traits : Block Usage := none
  resourceType : Option Usage := none
  securedBy : Block Usage := none
  uriParameters : Block Parameter := none
deriving Repr

namespace Resource

mutual

/-- Identity of resources is decidable. -/
def decEq : (a b : Resource) → Decidable (a = b)
  | ⟨p, n, d, a, m, rs, t, ty, s, u⟩, ⟨p', n', d', a', m', rs', t', ty', s', u'⟩ =>
    match decEqBlock rs rs' with
    | isTrue h =>
      decidable_of_iff
        (p = p' ∧ n = n' ∧ d = d' ∧ a = a' ∧ m = m' ∧ t = t' ∧ ty = ty' ∧ s = s' ∧ u = u')
        (by simp [h])
    | isFalse h => isFalse (by simp [h])

/-- Identity of the resources below a node is decidable. -/
def decEqBlock : (as bs : Option (List Resource)) → Decidable (as = bs)
  | none, none => isTrue rfl
  | none, some _ => isFalse (by simp)
  | some _, none => isFalse (by simp)
  | some as, some bs =>
    match decEqList as bs with
    | isTrue h => isTrue (by rw [h])
    | isFalse h => isFalse (by simpa using h)

/-- Identity of lists of resources is decidable. -/
def decEqList : (as bs : List Resource) → Decidable (as = bs)
  | [], [] => isTrue rfl
  | [], _ :: _ => isFalse (by simp)
  | _ :: _, [] => isFalse (by simp)
  | a :: as, b :: bs =>
    match decEq a b, decEqList as bs with
    | isTrue h, isTrue hs => isTrue (by rw [h, hs])
    | isFalse h, _ => isFalse (by simp [h])
    | _, isFalse hs => isFalse (by simp [hs])

end

instance : DecidableEq Resource := decEq

/-- The resource without the resources in it. -/
def alone (resource : Resource) : Resource := { resource with resources := none }

/-- The resources in a resource. -/
def children (resource : Resource) : List Resource := Block.elements resource.resources

/-- The path of a resource below a parent with a given path. -/
def absolutePath (resource : Resource) (parent : String) : String :=
  String.ofList (Text.dropTailWhile (· = '/') parent.toList) ++ resource.path

/-- The template names in the resource's own path. -/
def pathParameterNames (resource : Resource) : List String := templateNames resource.path

end Resource

end RamlDoc
