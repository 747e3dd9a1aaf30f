import Mathlib
import RamlDoc.Proofs.RelativePaths
import RamlDoc.Read.Library

/-!
# Import graphs

Files import libraries under `uses`. An import path is a list of positions: which import of the
root, which import of the file it leads to, and so on. The lexicographic order of these lists is the
order in which libraries are read, depth first. A path is faulty if it visits a file twice or is too
long. `Explored` says what reading the imports of a file must give: the unfolding of the graph to a
tree of libraries if no path is faulty, and an error that tells of the first faulty path otherwise.
It is built up import by import (`Explored.cons_ok`, `Explored.cons_failed`,
`Explored.cons_refused`).
-/

namespace RamlDoc

open Yaml

/-- A library that is used under a name. -/
structure Import where
  name : String
  target : String
deriving DecidableEq, Repr

/-- The import that an entry under `uses` is. -/
def Import.ofEntry? (entry : Tree × Tree) : Option Import :=
  entry.1.asString?.bind fun name => (Library.pathOf? entry.2).map fun target => ⟨name, target⟩

/-- An import and the file that it leads to. -/
structure ImportStep extends Import where
  location : Location
deriving DecidableEq, Repr

/-- The entries under `uses` in the body of a file. -/
def usedEntries (tree : Tree) : Entries :=
  match tree with
  | .mapping entries =>
    match Entries.field? entries "uses" with
    | some (.mapping used) => used
    | _ => []
  | _ => []

/-- The imports in the body of a file. -/
def importsOf (tree : Tree) : List Import := (usedEntries tree).filterMap Import.ofEntry?

namespace FileSystem

/-- The imports of the file at a location. -/
def importsAt (files : FileSystem) (options : Options) (location : Location) : List Import :=
  match files.entry? location with
  | some (.file (some text)) =>
    match (Fixup.readTree options text.toList).result with
    | .ok tree => importsOf tree
    | .error _ => []
  | _ => []

/-- The steps of the import path at some positions, from imports of the file at a location. -/
def walk? (files : FileSystem) (options : Options) :
    Location → List Import → (positions : List Nat) → Option (List ImportStep)
  | _, _, [] => some []
  | location, imports, position :: positions =>
    imports[position]?.bind fun used =>
      (files.fromFile? location used.target).bind fun next =>
        (files.walk? options next (files.importsAt options next) positions).map fun steps =>
          ⟨used, next⟩ :: steps

/-- The libraries that imports of the file at a location unfold to, down to a depth. -/
def unfolding (files : FileSystem) (options : Options) :
    (depth : Nat) → Location → List Import → List Library
  | 0, _, _ => []
  | depth + 1, location, imports =>
    imports.filterMap fun used => (files.fromFile? location used.target).map fun next =>
      { identifier := used.name
        uses := Block.ofList (files.unfolding options depth next (files.importsAt options next)) }

end FileSystem

/-- An import path is faulty behind some files if it comes to one of them, or to a file twice, or
if too many includes are nested. -/
def Faulty (limit : Nat) (visited : List Location) (steps : List ImportStep) : Prop :=
  ¬ (steps.map ImportStep.location ++ visited).Nodup ∨ limit + 1 < steps.length + visited.length

/-- The path to the file at the end of an import path, put together from the targets. -/
def spelled (path : Path) (steps : List ImportStep) : Path :=
  steps.foldl (fun path step => (path.parent?.getD ⟨""⟩).join step.target) path

/-- What is wrong with an import path. -/
def faultOf (limit : Nat) (visited : List Location) (path : Path) (steps : List ImportStep) :
    Error :=
  if (steps.map ImportStep.location ++ visited).Nodup then
    .includesTooDeep (spelled path steps) limit
  else .circularInclude (spelled path steps)

/-- The error that tells of an import path, with the names of the libraries on it. -/
def toldWith (steps : List ImportStep) (cause : Error) : Error :=
  steps.foldr (fun step error => .failed .library step.name error) cause

/-- Some files that may be on the chain. -/
def Fits (limit : Nat) (visited : List Location) : Prop :=
  visited.Nodup ∧ visited.length ≤ limit + 1

section Explored

variable {files : FileSystem} {options : Options} {limit : Nat} {visited : List Location}
  {path : Path} {location next : Location} {used : Import} {imports : List Import}

theorem not_faulty_nil (hfits : Fits limit visited) : ¬ Faulty limit visited [] := by
  simp only [Faulty, List.map_nil, List.nil_append, List.length_nil, Nat.zero_add, not_or, not_not]
  exact ⟨hfits.1, Nat.not_lt.2 hfits.2⟩

/-- The first file of a path may as well be among those that were visited. -/
theorem nodup_cons_iff (step : ImportStep) (steps : List ImportStep) :
    ((step :: steps).map ImportStep.location ++ visited).Nodup ↔
      (steps.map ImportStep.location ++ step.location :: visited).Nodup := by
  rw [List.map_cons, List.cons_append]
  exact List.perm_middle.symm.nodup_iff

theorem faulty_cons_iff (step : ImportStep) (steps : List ImportStep) :
    Faulty limit visited (step :: steps) ↔ Faulty limit (step.location :: visited) steps := by
  rw [Faulty, Faulty, nodup_cons_iff, List.length_cons, List.length_cons]
  have hlength : steps.length + 1 + visited.length = steps.length + (visited.length + 1) := by omega
  rw [hlength]

/-- One more import is faulty if it comes to a file again or is nested too deeply. -/
theorem faulty_singleton_iff (hfits : Fits limit visited) (step : ImportStep) :
    Faulty limit visited [step] ↔ step.location ∈ visited ∨ limit + 1 ≤ visited.length := by
  rw [Faulty, List.map_singleton, List.singleton_append, List.nodup_cons, List.length_singleton,
    Nat.add_comm 1, Nat.lt_succ_iff, not_and_or, not_not, or_iff_left (not_not.2 hfits.1)]

theorem faultOf_cons (step : ImportStep) (steps : List ImportStep) :
    faultOf limit visited path (step :: steps) =
      faultOf limit (step.location :: visited) ((path.parent?.getD ⟨""⟩).join step.target)
        steps := by
  simp only [faultOf, nodup_cons_iff]
  rfl

theorem walk?_zero (positions : List Nat)
    (hnext : files.fromFile? location used.target = some next) :
    files.walk? options location (used :: imports) (0 :: positions) =
      (files.walk? options next (files.importsAt options next) positions).map fun steps =>
        ⟨used, next⟩ :: steps := by
  rw [FileSystem.walk?, List.getElem?_cons_zero, Option.bind_some, hnext, Option.bind_some]

theorem walk?_succ (used : Import) (position : Nat) (positions : List Nat) :
    files.walk? options location (used :: imports) ((position + 1) :: positions) =
      files.walk? options location imports (position :: positions) := by
  rw [FileSystem.walk?, FileSystem.walk?, List.getElem?_cons_succ]

/-- An import path is empty, or it goes into the first import, or it starts at another. -/
theorem walk?_cases (hnext : files.fromFile? location used.target = some next)
    {positions : List Nat} {steps : List ImportStep}
    (h : files.walk? options location (used :: imports) positions = some steps) :
    (positions = [] ∧ steps = []) ∨
    (∃ rest inner, positions = 0 :: rest ∧ steps = ⟨used, next⟩ :: inner ∧
      files.walk? options next (files.importsAt options next) rest = some inner) ∨
    (∃ position rest, positions = (position + 1) :: rest ∧
      files.walk? options location imports (position :: rest) = some steps) := by
  cases positions with
  | nil => exact .inl ⟨rfl, (Option.some.inj h).symm⟩
  | cons position rest =>
    cases position with
    | zero =>
      rw [walk?_zero _ hnext] at h
      obtain ⟨inner, hinner, rfl⟩ := Option.map_eq_some_iff.1 h
      exact .inr (.inl ⟨rest, inner, rfl, rfl, hinner⟩)
    | succ position => exact .inr (.inr ⟨position, rest, rfl, by rwa [walk?_succ] at h⟩)

/-- Before a path into the first import come the empty path and paths into the same import. -/
theorem walk?_before (hnext : files.fromFile? location used.target = some next)
    {positions earlier : List Nat} {others : List ImportStep}
    (hearlier : earlier < 0 :: positions)
    (h : files.walk? options location (used :: imports) earlier = some others) :
    others = [] ∨ ∃ rest < positions, ∃ inner, others = ⟨used, next⟩ :: inner ∧
      files.walk? options next (files.importsAt options next) rest = some inner := by
  obtain ⟨-, hnil⟩ | ⟨rest, inner, rfl, hothers, hinner⟩ | ⟨position, rest, rfl, -⟩ :=
    walk?_cases hnext h
  · exact .inl hnil
  · obtain hlt | ⟨-, hlt⟩ := List.cons_lt_cons_iff.1 hearlier
    · exact absurd hlt (Nat.lt_irrefl 0)
    · exact .inr ⟨rest, hlt, inner, hothers, hinner⟩
  · obtain hlt | ⟨heq, -⟩ := List.cons_lt_cons_iff.1 hearlier
    · exact absurd hlt (Nat.not_lt_zero _)
    · cases heq

/-- What reading imports of the file at a location must give, when some files are on the chain. -/
inductive Explored (files : FileSystem) (options : Options) (limit : Nat) (visited : List Location)
    (path : Path) (location : Location) (imports : List Import) :
    Except Error (List Library) → Prop
  | sound {libraries : List Library}
    (hsound : ∀ positions steps, files.walk? options location imports positions = some steps →
      ¬ Faulty limit visited steps)
    (hunfolds : ∀ depth, limit + 1 ≤ depth + visited.length →
      libraries = files.unfolding options depth location imports) :
    Explored files options limit visited path location imports (.ok libraries)
  | faulty {positions : List Nat} {steps : List ImportStep}
    (hwalk : files.walk? options location imports positions = some steps)
    (hfaulty : Faulty limit visited steps)
    (hfirst : ∀ earlier < positions, ∀ others,
      files.walk? options location imports earlier = some others → ¬ Faulty limit visited others) :
    Explored files options limit visited path location imports
      (.error (toldWith steps (faultOf limit visited path steps)))

namespace Explored

/-- Without imports nothing is read. -/
theorem nil (hfits : Fits limit visited) :
    Explored files options limit visited path location [] (.ok []) := by
  refine .sound ?_ ?_
  · intro positions steps hwalk
    cases positions with
    | nil =>
      obtain rfl := Option.some.inj hwalk
      exact not_faulty_nil hfits
    | cons position positions => cases hwalk
  · intro depth hdepth
    cases depth <;> rfl

/-- An import that is faulty by itself is the first fault. -/
theorem cons_refused (hfits : Fits limit visited)
    (hnext : files.fromFile? location used.target = some next)
    (hfaulty : Faulty limit visited [⟨used, next⟩]) :
    Explored files options limit visited path location (used :: imports)
      (.error (.failed .library used.name (faultOf limit visited path [⟨used, next⟩]))) := by
  have hwalk : files.walk? options location (used :: imports) [0] = some [⟨used, next⟩] := by
    rw [walk?_zero _ hnext, FileSystem.walk?, Option.map_some]
  refine .faulty hwalk hfaulty fun earlier hearlier others hothers => ?_
  obtain rfl | ⟨rest, hrest, -⟩ := walk?_before hnext hearlier hothers
  · exact not_faulty_nil hfits
  · exact absurd hrest (List.not_lt_nil rest)

/-- A fault behind the first import is the first fault. -/
theorem cons_failed (hfits : Fits limit visited)
    (hnext : files.fromFile? location used.target = some next) {error : Error}
    (hinner : Explored files options limit (next :: visited)
      ((path.parent?.getD ⟨""⟩).join used.target) next (files.importsAt options next)
      (.error error)) :
    Explored files options limit visited path location (used :: imports)
      (.error (.failed .library used.name error)) := by
  cases hinner with
  | faulty hwalk hfaulty hfirst =>
    next positions steps =>
    rw [← faultOf_cons ⟨used, next⟩ steps]
    have hwhole : files.walk? options location (used :: imports) (0 :: positions) =
        some (⟨used, next⟩ :: steps) := by
      rw [walk?_zero _ hnext, hwalk, Option.map_some]
    refine .faulty hwhole ((faulty_cons_iff _ steps).2 hfaulty) ?_
    intro earlier hearlier others hothers
    obtain rfl | ⟨rest, hrest, inner, rfl, hinner⟩ := walk?_before hnext hearlier hothers
    · exact not_faulty_nil hfits
    · rw [faulty_cons_iff]
      exact hfirst rest hrest inner hinner

/-- Behind a first import without faults, the other imports decide. -/
theorem cons_ok (hfits : Fits limit visited)
    (hnext : files.fromFile? location used.target = some next) {libraries : List Library}
    (hinner : Explored files options limit (next :: visited)
      ((path.parent?.getD ⟨""⟩).join used.target) next (files.importsAt options next)
      (.ok libraries)) {result : Except Error (List Library)}
    (houter : Explored files options limit visited path location imports result) :
    Explored files options limit visited path location (used :: imports)
      (result.map fun others =>
        { identifier := used.name, uses := Block.ofList libraries } :: others) := by
  obtain ⟨hsound, hunfolds⟩ : _ ∧ _ := by
    cases hinner with
    | sound hsound hunfolds => exact ⟨hsound, hunfolds⟩
  have hinner : ∀ rest inner,
      files.walk? options next (files.importsAt options next) rest = some inner →
        ¬ Faulty limit visited (⟨used, next⟩ :: inner) := by
    intro rest inner hwalk
    rw [faulty_cons_iff]
    exact hsound rest inner hwalk
  cases houter with
  | sound hothers hrest =>
    refine .sound ?_ ?_
    · -- a path goes into the first import or into the others
      intro positions steps hwalk
      obtain ⟨rfl, rfl⟩ | ⟨rest, inner, rfl, rfl, hrest⟩ | ⟨position, rest, rfl, hrest⟩ :=
        walk?_cases hnext hwalk
      · exact not_faulty_nil hfits
      · exact hinner rest inner hrest
      · exact hothers _ steps hrest
    · intro depth hdepth
      cases depth with
      | zero =>
        -- the import itself would be nested too deeply
        refine absurd (.inr ?_) (hinner [] [] rfl)
        simp only [List.length_singleton]
        omega
      | succ depth =>
        have hlibraries := hunfolds depth (by simp only [List.length_cons]; omega)
        rw [hrest (depth + 1) hdepth, hlibraries, FileSystem.unfolding, FileSystem.unfolding,
          List.filterMap_cons, hnext]
        rfl
  | faulty hwalk hfaulty hfirst =>
    next positions steps =>
    cases positions with
    | nil =>
      obtain rfl := Option.some.inj hwalk
      exact absurd hfaulty (not_faulty_nil hfits)
    | cons position rest =>
      -- the fault keeps its path with one position more, and all paths into the first import are
      -- before it
      have hwhole := (walk?_succ used position rest).trans hwalk
      refine .faulty hwhole hfaulty fun earlier hearlier others hothers => ?_
      obtain ⟨rfl, rfl⟩ | ⟨before, inner, rfl, rfl, hbefore⟩ | ⟨other, before, rfl, hbefore⟩ :=
        walk?_cases hnext hothers
      · exact not_faulty_nil hfits
      · exact hinner before inner hbefore
      · refine hfirst _ ?_ others hbefore
        rw [List.cons_lt_cons_iff] at hearlier ⊢
        exact hearlier.imp Nat.lt_of_succ_lt_succ (And.imp_left Nat.succ.inj)

end Explored

end Explored

end RamlDoc
