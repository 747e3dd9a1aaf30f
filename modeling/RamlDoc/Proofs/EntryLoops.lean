import Mathlib.Data.List.Perm.Basic
import RamlDoc.Read.Document

/-!
# Loops over entries

Some readers go through the entries of a mapping: all of a block, or those whose keys are verbs,
paths, status codes or media types. Each has the results of the entries that it picks, in order, up
to the first error (`collect`). So it succeeds exactly when all of them do
(`collect_eq_ok_iff`).
-/

namespace RamlDoc

open Yaml

variable {α : Type}

/-- The results of the entries that are picked, up to the first error. -/
def collect (outcome? : Tree × Tree → Option (Except Error α)) (entries : Entries) :
    Except Error (List α) :=
  (entries.filterMap outcome?).mapM id

section Collect

variable {outcome? : Tree × Tree → Option (Except Error α)} {entry : Tree × Tree}
  {entries : Entries} {items : List α}

theorem collect_cons_of_none (h : outcome? entry = none) :
    collect outcome? (entry :: entries) = collect outcome? entries := by
  rw [collect, List.filterMap_cons_none h, collect]

theorem collect_cons_of_some {result : Except Error α} (h : outcome? entry = some result) :
    collect outcome? (entry :: entries) = do
      let item ← result
      return item :: (← collect outcome? entries) := by
  rw [collect, List.filterMap_cons_some h, List.mapM_cons]
  rfl

/-- The loop succeeds with some items exactly if these are the results of the entries that it picks.
-/
theorem collect_eq_ok_iff :
    collect outcome? entries = .ok items ↔ entries.filterMap outcome? = items.map .ok := by
  unfold collect
  induction entries.filterMap outcome? generalizing items with
  | nil =>
    rw [List.mapM_nil]
    constructor
    · rintro ⟨⟩
      rfl
    · intro h
      rw [List.map_eq_nil_iff.1 h.symm]
      rfl
  | cons result results ih =>
    rw [List.mapM_cons, id]
    cases result with
    | error error =>
      refine ⟨nofun, fun h => ?_⟩
      cases items with
      | nil => cases h
      | cons item items => cases h
    | ok item =>
      change (results.mapM id >>= fun rest => .ok (item :: rest)) = _ ↔ _
      constructor
      · intro h
        obtain ⟨rest, hrest, hitems⟩ := exists_of_bind_eq_ok h
        obtain rfl := Except.ok.inj hitems
        rw [ih.1 hrest, List.map_cons]
      · intro h
        cases items with
        | nil => cases h
        | cons other items =>
          rw [List.map_cons, List.cons_eq_cons, Except.ok.injEq] at h
          rw [ih.2 h.2, h.1]
          rfl

end Collect

/-! ## The loops -/

/-- The result of an entry of a block. -/
def entryOutcome (construct : String) (read : String → Tree → Reading α) (entry : Tree × Tree) :
    Except Error α := do
  let name ← keyText construct entry.1
  (read name entry.2).result

/-- A block picks all entries. -/
theorem result_readEntries (construct : String) (read : String → Tree → Reading α)
    (entries : Entries) :
    (readEntries construct read entries).result =
      collect (fun entry => some (entryOutcome construct read entry)) entries := by
  induction entries with
  | nil => rfl
  | cons entry entries ih =>
    rw [collect_cons_of_some rfl, ← ih, entryOutcome, bind_assoc]
    simp only [readEntries, Reading.result_bind, Reading.result_monadLift, Reading.result_pure]
    rfl

/-- The result of an entry of a body, if its key is a media type. A key that is not a string is an
error. -/
def MediaTypeBody.outcome? (source : Source) (entry : Tree × Tree) :
    Option (Except Error MediaTypeBody) :=
  match keyText "Body" entry.1 with
  | .error error => some (.error error)
  | .ok identifier =>
    if MediaType.isValid identifier then some (read source identifier entry.2).result else none

/-- The variants of a body are read by such a loop. -/
theorem MediaTypeBody.result_readAll (source : Source) (entries : Entries) :
    (readAll source entries).result = collect (outcome? source) entries := by
  induction entries with
  | nil => rfl
  | cons entry entries ih =>
    unfold readAll
    rw [Reading.result_bind, Reading.result_monadLift]
    cases hkey : keyText "Body" entry.1 with
    | error error =>
      rw [collect_cons_of_some (by rw [outcome?, hkey])]
      rfl
    | ok identifier =>
      change (if MediaType.isValid identifier then _ else _ : Reading _).result = _
      split
      next hvalid =>
        rw [collect_cons_of_some (by rw [outcome?, hkey]; exact if_pos hvalid), ← ih]
        simp only [Reading.result_bind, Reading.result_pure]
        rfl
      next hvalid =>
        rw [collect_cons_of_none (by rw [outcome?, hkey]; exact if_neg hvalid), ih]

/-- The result of an entry of responses, if its key is a status code. -/
def Response.outcome? (source : Source) (entry : Tree × Tree) : Option (Except Error Response) :=
  (code? entry.1).map fun code => (read source code entry.2).result

/-- Responses are read by such a loop. -/
theorem Response.result_ofCodes (source : Source) (entries : Entries) :
    (ofCodes source entries).result = collect (outcome? source) entries := by
  induction entries with
  | nil => rfl
  | cons entry entries ih =>
    unfold ofCodes
    split
    next hcode =>
      rw [collect_cons_of_none (by rw [outcome?, hcode]; rfl), ← ih, Reading.result_bind]
      rfl
    next code hcode =>
      rw [collect_cons_of_some (by rw [outcome?, hcode]; rfl), ← ih]
      simp only [Reading.result_bind, Reading.result_pure]
      rfl

/-- The result of an entry whose key is a verb. -/
def Method.outcome? (source : Source) (allowOptional : Bool) (entry : Tree × Tree) :
    Option (Except Error Method) :=
  (entry.1.asString?.bind (verbOf? allowOptional)).map fun (verb, optional) =>
    (read source verb optional entry.2).result

/-- Methods are read by such a loop. -/
theorem Method.result_ofVerbs (source : Source) (allowOptional : Bool) (entries : Entries) :
    (ofVerbs source allowOptional entries).result =
      collect (outcome? source allowOptional) entries := by
  induction entries with
  | nil => rfl
  | cons entry entries ih =>
    unfold ofVerbs
    split
    next hverb => rw [collect_cons_of_none (by rw [outcome?, hverb]; rfl), ih]
    next verb optional hverb =>
      rw [collect_cons_of_some (by rw [outcome?, hverb]; rfl), ← ih]
      simp only [Reading.result_bind, Reading.result_pure]
      rfl

/-- The result of an entry whose key is a path. -/
def Resource.outcome? (source : Source) (entry : Tree × Tree) : Option (Except Error Resource) :=
  (pathOf? entry.1).map fun path => (read source path entry.2).result

/-- Resources are read by such a loop. -/
theorem Resource.result_readEntries (source : Source) (entries : Entries) :
    (readEntries source entries).result = collect (outcome? source) entries := by
  induction entries with
  | nil =>
    rw [readEntries]
    rfl
  | cons entry entries ih =>
    rw [readEntries]
    split
    next hpath => rw [collect_cons_of_none (by rw [outcome?, hpath]; rfl), ih]
    next path hpath =>
      rw [collect_cons_of_some (by rw [outcome?, hpath]; rfl), ← ih]
      simp only [Reading.result_bind, Reading.result_pure]
      rfl

/-- Used libraries are read by such a loop, and one that fails keeps its name. -/
theorem Library.result_readEntries (source : Source) (entries : Entries) :
    (readEntries source entries).result =
      collect (fun entry => some (entryOutcome "Library" (fun name tree =>
        (read source name tree).mapError (.failed .library name)) entry)) entries := by
  induction entries with
  | nil =>
    rw [readEntries]
    rfl
  | cons entry entries ih =>
    rw [readEntries, collect_cons_of_some rfl, ← ih, entryOutcome, bind_assoc]
    simp only [Reading.result_bind, Reading.result_monadLift, Reading.result_pure]
    rfl

end RamlDoc
