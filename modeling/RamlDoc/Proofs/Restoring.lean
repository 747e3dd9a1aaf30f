import Mathlib
import RamlDoc.Fixup.Document
import RamlDoc.Proofs.RecordedKeys

/-!
# What restoring empty values loses

Restoring writes null at the end of each recorded path. It leaves a tree as it is exactly when every
line that looks like an entry without a value has a path that leads nowhere or to null
(`restore_fixText_eq_self_iff`). A path that leads elsewhere loses what stands there, and there are
such texts: the pass does not know every key that the reader knows.
-/

namespace RamlDoc.Fixup

open Yaml

/-- The value at the end of a path, if the path leads through mappings to an entry. -/
def valueAt? : KeyPath → Tree → Option Tree
  | [], tree => some tree
  | step :: path, .mapping entries =>
    (entries.find? fun entry => keyHasText entry.1 step).bind fun entry => valueAt? path entry.2
  | _ :: _, _ => none

section

variable {tree : Tree} {path : KeyPath} {paths : List KeyPath} {entries : Entries}

/-! ## One path -/

theorem changeFirst_eq_self_iff {p : Tree → Bool} {change : Tree → Tree} :
    changeFirst p change entries = entries ↔
      ∀ entry, entries.find? (fun entry => p entry.1) = some entry → change entry.2 = entry.2 := by
  induction entries with
  | nil => simp [changeFirst]
  | cons entry entries ih =>
    obtain ⟨key, value⟩ := entry
    rw [changeFirst]
    by_cases h : p key
    · simp [h]
    · simp [h, ih]

/-- Clearing a path does nothing exactly when it leads nowhere or to null. -/
theorem clearAt_eq_self_iff :
    clearAt path tree = tree ↔ ∀ value, valueAt? path tree = some value → value = .null := by
  induction path generalizing tree with
  | nil => simp [clearAt, valueAt?, eq_comm]
  | cons step path ih =>
    cases tree with
    | mapping entries =>
      rw [clearAt, Tree.mapping.injEq, changeFirst_eq_self_iff, valueAt?]
      constructor
      · intro h value hvalue
        obtain ⟨entry, hentry, hvalue⟩ := Option.bind_eq_some_iff.1 hvalue
        exact ih.1 (h entry hentry) value hvalue
      · intro h entry hentry
        exact ih.2 fun value hvalue => h value (Option.bind_eq_some_iff.2 ⟨entry, hentry, hvalue⟩)
    | _ => simp [clearAt, valueAt?]

/-! ## All paths -/

theorem sizeOf_null_lt (h : tree ≠ .null) : sizeOf Tree.null < sizeOf tree := by
  cases tree with
  | null => exact absurd rfl h
  | bool value => simp
  | number value => cases value <;> simp +arith
  | string value => cases value; simp +arith
  | sequence items => cases items <;> simp +arith
  | mapping entries => cases entries <;> simp +arith
  | tagged tag value =>
    rw [Tree.null.sizeOf_spec, Tree.tagged.sizeOf_spec]
    have : 0 < sizeOf tag := by
      cases tag
      simp +arith
    omega

theorem changeFirst_shrinks (p : Tree → Bool) {change : Tree → Tree} (entries : Entries)
    (h : ∀ value, change value = value ∨ sizeOf (change value) < sizeOf value) :
    changeFirst p change entries = entries ∨
      sizeOf (changeFirst p change entries) < sizeOf entries := by
  induction entries with
  | nil => exact .inl rfl
  | cons entry entries ih =>
    obtain ⟨key, value⟩ := entry
    rw [changeFirst]
    split
    · rcases h value with heq | hlt
      · exact .inl (by rw [heq])
      · exact .inr (by simpa using hlt)
    · rcases ih with heq | hlt
      · exact .inl (by rw [heq])
      · exact .inr (by simpa using hlt)

/-- Clearing a path makes the tree smaller, if it does anything. -/
theorem clearAt_shrinks (path : KeyPath) (tree : Tree) :
    clearAt path tree = tree ∨ sizeOf (clearAt path tree) < sizeOf tree := by
  induction path generalizing tree with
  | nil =>
    rw [clearAt]
    by_cases h : tree = .null
    · exact .inl h.symm
    · exact .inr (sizeOf_null_lt h)
  | cons step path ih =>
    cases tree with
    | mapping entries =>
      rw [clearAt]
      rcases changeFirst_shrinks (keyHasText · step) entries ih with heq | hlt
      · exact .inl (by rw [heq])
      · exact .inr (by simpa using hlt)
    | _ => exact .inl rfl

theorem restore_cons (tree : Tree) (path : KeyPath) (paths : List KeyPath) :
    restore tree (path :: paths) = restore (clearAt path tree) paths := rfl

theorem sizeOf_restore_le (tree : Tree) (paths : List KeyPath) :
    sizeOf (restore tree paths) ≤ sizeOf tree := by
  induction paths generalizing tree with
  | nil => exact Nat.le_refl _
  | cons path paths ih =>
    have hrest := ih (clearAt path tree)
    rw [restore_cons]
    rcases clearAt_shrinks path tree with heq | hlt
    · rwa [heq] at hrest ⊢
    · omega

/-- No later path makes up for what an earlier one has cleared. -/
theorem restore_eq_self_iff :
    restore tree paths = tree ↔ ∀ path ∈ paths, clearAt path tree = tree := by
  induction paths with
  | nil => simp [restore]
  | cons path paths ih =>
    rw [restore_cons, List.forall_mem_cons]
    constructor
    · intro h
      have hfirst : clearAt path tree = tree := by
        rcases clearAt_shrinks path tree with heq | hlt
        · exact heq
        · have hrest := sizeOf_restore_le (clearAt path tree) paths
          rw [h] at hrest
          omega
      rw [hfirst] at h
      exact ⟨hfirst, ih.1 h⟩
    · rintro ⟨hfirst, hrest⟩
      rw [hfirst]
      exact ih.2 hrest

end

/-- Restoring the empty values of a text keeps a tree exactly when, for every line of the text that
looks like an entry without a value, the path of its keys leads nowhere in the tree or to null. -/
theorem restore_fixText_eq_self_iff {text : List Char} {tree : Tree} :
    restore tree (fixText text).emptyKeys = tree ↔
      ∀ before line following path, Text.lines text = before ++ line :: following →
        LooksEmpty before line following path →
          ∀ value, valueAt? path tree = some value → value = .null := by
  rw [restore_eq_self_iff]
  constructor
  · intro h before line following path hsplit hempty
    have hpath := mem_emptyKeys_iff.2 ⟨before, line, following, hsplit, hempty⟩
    exact clearAt_eq_self_iff.1 (h path hpath)
  · intro h path hpath
    obtain ⟨before, line, following, hsplit, hempty⟩ := mem_emptyKeys_iff.1 hpath
    exact clearAt_eq_self_iff.2 (h before line following path hsplit hempty)

/-- A key with a number sign is none for the pass, so the empty key below it is taken for one at the
root, and the value of the entry there is lost. -/
theorem restore_ne_self_of_number_sign :
    Yaml.read (fixText "a#b:\n  c:\nc: 1\n".toList).text =
        .ok (.mapping [(.string "a#b", .mapping [(.string "c", .null)]),
          (.string "c", .number (.integer 1))]) ∧
      restore (.mapping [(.string "a#b", .mapping [(.string "c", .null)]),
          (.string "c", .number (.integer 1))]) (fixText "a#b:\n  c:\nc: 1\n".toList).emptyKeys ≠
        .mapping [(.string "a#b", .mapping [(.string "c", .null)]),
          (.string "c", .number (.integer 1))] := by
  refine ⟨by cbv, ?_⟩
  have hkeys : (fixText "a#b:\n  c:\nc: 1\n".toList).emptyKeys = [["c"]] := by cbv
  rw [hkeys]
  decide

end RamlDoc.Fixup
