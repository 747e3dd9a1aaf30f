import Mathlib.Tactic.Tauto
import RamlDoc.Proofs.FirstDirective
import RamlDoc.Proofs.Restoring

/-!
# What restoring empty values does to a tree

A path of keys leads to a position of a tree, if anywhere (`positionOf?`). Restoring goes path by
path, and each path is looked up in a tree that the earlier ones have changed. All the same it puts
null at the positions to which the paths lead in the tree as it was, and changes nothing else
(`restore_eq_nulled`): clearing a path in a tree with nulls at some positions puts one more there,
or none if a null is in the way (`clearAt_nulled`). So only the set of paths matters, and restoring
twice does what restoring once does (`restore_eq_iff_nullsAt`).
-/

namespace RamlDoc.Yaml.Tree

variable {tree : Tree} {p : List Nat → Bool} {position outer : List Nat}

/-! ## Trees part by part -/

/-- The tree with each of its parts changed, given the place of the part among them. -/
def mapParts (change : Nat → Tree → Tree) : Tree → Tree
  | .sequence items => .sequence (items.mapIdx change)
  | .mapping entries => .mapping (entries.mapIdx fun index entry => (entry.1, change index entry.2))
  | .tagged tag value => .tagged tag (change 0 value)
  | tree => tree

/-- The node at the root of a tree, with null for each of its parts: a scalar, a tag, the number of
items, or the keys in their order. -/
def node (tree : Tree) : Tree := tree.mapParts fun _ _ => .null

theorem parts_mapParts (change : Nat → Tree → Tree) (tree : Tree) :
    (tree.mapParts change).parts = tree.parts.mapIdx change := by
  cases tree with
  | mapping entries =>
    apply List.ext_getElem?
    intro index
    simp [mapParts, parts, List.getElem?_mapIdx, Function.comp_def]
  | _ => rfl

theorem mapParts_mapParts (change change' : Nat → Tree → Tree) (tree : Tree) :
    (tree.mapParts change).mapParts change' =
      tree.mapParts fun index part => change' index (change index part) := by
  cases tree with
  | sequence items => simp [mapParts, List.mapIdx_mapIdx, Function.comp_def]
  | mapping entries => simp [mapParts, List.mapIdx_mapIdx, Function.comp_def]
  | _ => rfl

theorem node_mapParts (change : Nat → Tree → Tree) (tree : Tree) :
    (tree.mapParts change).node = tree.node :=
  mapParts_mapParts change _ tree

theorem mapParts_eq_self {change : Nat → Tree → Tree}
    (h : ∀ index part, tree.parts[index]? = some part → change index part = part) :
    tree.mapParts change = tree := by
  cases tree with
  | sequence items =>
    refine congrArg sequence (List.mapIdx_eq_iff.2 fun index => ?_)
    cases hitem : items[index]? with
    | none => rfl
    | some item => rw [Option.map_some, h index item hitem]
  | mapping entries =>
    refine congrArg mapping (List.mapIdx_eq_iff.2 fun index => ?_)
    cases hentry : entries[index]? with
    | none => rfl
    | some entry =>
      have hpart : (mapping entries).parts[index]? = some entry.2 := by
        rw [parts, List.getElem?_map, hentry, Option.map_some]
      rw [Option.map_some, h index entry.2 hpart]
  | tagged tag value => rw [mapParts, h 0 value rfl]
  | _ => rfl

/-- A tree is the node at its root with its parts put back. -/
theorem mapParts_node (tree : Tree) :
    tree.node.mapParts (fun index _ => tree.parts[index]?.getD .null) = tree := by
  rw [node, mapParts_mapParts]
  apply mapParts_eq_self
  intro index part hpart
  rw [hpart, Option.getD_some]

/-- A tree is known by the nodes at its positions. -/
theorem eq_of_nodes {other : Tree}
    (h : ∀ position, (tree.at? position).map node = (other.at? position).map node) :
    tree = other := by
  induction tree using induction_on_parts generalizing other with
  | step tree ih =>
    have hnode : tree.node = other.node := Option.some.inj (h [])
    suffices hparts : tree.parts = other.parts by
      rw [← mapParts_node tree, ← mapParts_node other, hnode, hparts]
    apply List.ext_getElem?
    intro index
    have hinside : ∀ inner, (tree.parts[index]?.bind (·.at? inner)).map node =
        (other.parts[index]?.bind (·.at? inner)).map node := fun inner => h (index :: inner)
    cases hpart : tree.parts[index]? with
    | none =>
      have hroot := hinside []
      rw [hpart] at hroot
      cases hpart' : other.parts[index]? with
      | none => rfl
      | some part' =>
        rw [hpart'] at hroot
        cases hroot
    | some part =>
      rw [hpart] at hinside
      cases hpart' : other.parts[index]? with
      | none =>
        have hroot := hinside []
        rw [hpart'] at hroot
        cases hroot
      | some part' =>
        rw [hpart'] at hinside
        exact congrArg some (ih part (List.mem_of_getElem? hpart) hinside)

/-! ## Null at some positions -/

mutual

/-- The tree with null at each position of which `p` holds. -/
def nulled (p : List Nat → Bool) (tree : Tree) : Tree :=
  if p [] then .null
  else
    match tree with
    | .sequence items => .sequence (nulledItems p 0 items)
    | .mapping entries => .mapping (nulledEntries p 0 entries)
    | .tagged tag value => .tagged tag (nulled (fun inner => p (0 :: inner)) value)
    | scalar => scalar

/-- The items of a sequence from an index on, with null at each position of which `p` holds. -/
def nulledItems (p : List Nat → Bool) (index : Nat) : List Tree → List Tree
  | [] => []
  | item :: items =>
    nulled (fun inner => p (index :: inner)) item :: nulledItems p (index + 1) items

/-- The entries of a mapping from an index on, with null at each position of which `p` holds. -/
def nulledEntries (p : List Nat → Bool) (index : Nat) : List (Tree × Tree) → List (Tree × Tree)
  | [] => []
  | (key, value) :: entries =>
    (key, nulled (fun inner => p (index :: inner)) value) :: nulledEntries p (index + 1) entries

end

theorem nulledItems_eq (p : List Nat → Bool) (index : Nat) (items : List Tree) :
    nulledItems p index items =
      items.mapIdx fun offset item => nulled (fun inner => p ((index + offset) :: inner)) item := by
  induction items generalizing index with
  | nil => rfl
  | cons item items ih =>
    rw [nulledItems, ih, List.mapIdx_cons]
    simp only [Nat.add_zero, Nat.add_assoc, Nat.add_comm 1]

theorem nulledEntries_eq (p : List Nat → Bool) (index : Nat) (entries : Entries) :
    nulledEntries p index entries = entries.mapIdx fun offset entry =>
      (entry.1, nulled (fun inner => p ((index + offset) :: inner)) entry.2) := by
  induction entries generalizing index with
  | nil => rfl
  | cons entry entries ih =>
    rw [nulledEntries, ih, List.mapIdx_cons]
    simp only [Nat.add_zero, Nat.add_assoc, Nat.add_comm 1]

/-- Null at the root, or the tree with nulls put in its parts. -/
theorem nulled_eq (p : List Nat → Bool) (tree : Tree) :
    nulled p tree =
      if p [] then .null
      else tree.mapParts fun index part => nulled (fun inner => p (index :: inner)) part := by
  cases tree with
  | sequence items =>
    rw [nulled, nulledItems_eq]
    simp only [Nat.zero_add, mapParts]
  | mapping entries =>
    rw [nulled, nulledEntries_eq]
    simp only [Nat.zero_add, mapParts]
  | tagged tag value =>
    rw [nulled]
    rfl
  | _ => rfl

theorem nulled_of_root (h : p [] = true) : nulled p tree = .null := by
  rw [nulled_eq, if_pos h]

theorem nulled_of_not_root (h : p [] = false) :
    nulled p tree =
      tree.mapParts fun index part => nulled (fun inner => p (index :: inner)) part := by
  rw [nulled_eq, if_neg (by simp [h])]

theorem nulled_nowhere (tree : Tree) : nulled (fun _ => false) tree = tree := by
  induction tree using induction_on_parts with
  | step tree ih =>
    rw [nulled_of_not_root rfl]
    exact mapParts_eq_self fun _ part hpart => ih part (List.mem_of_getElem? hpart)

/-! ## What stands at a position -/

/-- What putting null at some positions makes of a tree: null at each of them and nothing below it,
and at every other position the node that was there before. -/
structure NullsAt (reached : List Nat → Prop) (tree result : Tree) : Prop where
  null : ∀ position, reached position →
    (∀ outer, reached outer → outer <+: position → outer = position) →
      result.at? position = some .null
  nothingBelow : ∀ outer position, reached outer → outer <+: position → outer ≠ position →
    result.at? position = none
  kept : ∀ position, (∀ outer, reached outer → ¬outer <+: position) →
    (result.at? position).map node = (tree.at? position).map node

/-- There is only one such tree. -/
theorem NullsAt.unique {reached : List Nat → Prop} {result result' : Tree}
    (h : tree.NullsAt reached result) (h' : tree.NullsAt reached result') : result = result' := by
  apply eq_of_nodes
  intro position
  by_cases hfree : ∀ outer, reached outer → ¬outer <+: position
  · rw [h.kept position hfree, h'.kept position hfree]
  by_cases hbelow : ∃ outer, reached outer ∧ outer <+: position ∧ outer ≠ position
  · obtain ⟨outer, houter, hstart, hne⟩ := hbelow
    rw [h.nothingBelow outer position houter hstart hne,
      h'.nothingBelow outer position houter hstart hne]
  · have hfirst : ∀ outer, reached outer → outer <+: position → outer = position := by
      intro outer houter hstart
      by_contra hne
      exact hbelow ⟨outer, houter, hstart, hne⟩
    have hreached : reached position := by
      by_contra hnot
      refine hfree fun outer houter hstart => hnot ?_
      rwa [hfirst outer houter hstart] at houter
    rw [h.null position hreached hfirst, h'.null position hreached hfirst]

theorem at?_null_of_ne_nil (h : position ≠ []) : Tree.null.at? position = none := by
  cases position with
  | nil => exact absurd rfl h
  | cons step position => rfl

theorem at?_nulled_cons (h : p [] = false) (step : Nat) (position : List Nat) :
    (nulled p tree).at? (step :: position) = tree.parts[step]?.bind fun part =>
      (nulled (fun inner => p (step :: inner)) part).at? position := by
  rw [nulled_of_not_root h, at?, parts_mapParts, List.getElem?_mapIdx, Option.bind_map]
  rfl

theorem at?_nulled_of_first (hp : p position = true)
    (hfirst : ∀ outer, p outer = true → outer <+: position → outer = position) :
    (nulled p tree).at? position = (tree.at? position).map fun _ => .null := by
  induction position generalizing tree p with
  | nil =>
    rw [nulled_of_root hp]
    rfl
  | cons step position ih =>
    have hroot : p [] = false := by
      by_contra hroot
      have := hfirst [] (by simpa using hroot) List.nil_prefix
      cases this
    rw [at?_nulled_cons hroot, at?]
    cases tree.parts[step]? with
    | none => rfl
    | some part =>
      apply ih hp
      intro outer houter hstart
      have heq := hfirst (step :: outer) houter (List.cons_prefix_cons.2 ⟨rfl, hstart⟩)
      exact (List.cons.inj heq).2

theorem at?_nulled_below (hp : p outer = true) (hstart : outer <+: position)
    (hne : outer ≠ position) : (nulled p tree).at? position = none := by
  induction outer generalizing tree p position with
  | nil => rw [nulled_of_root hp, at?_null_of_ne_nil hne.symm]
  | cons step outer ih =>
    obtain ⟨rest, rfl⟩ := hstart
    by_cases hroot : p [] = true
    · rw [nulled_of_root hroot, at?_null_of_ne_nil (by simp)]
    · rw [List.cons_append, at?_nulled_cons (by simpa using hroot)]
      cases tree.parts[step]? with
      | none => rfl
      | some part =>
        apply ih hp (List.prefix_append outer rest)
        intro heq
        exact hne (congrArg (step :: ·) heq)

theorem map_node_at?_nulled (h : ∀ outer, p outer = true → ¬outer <+: position) :
    ((nulled p tree).at? position).map node = (tree.at? position).map node := by
  have hroot : p [] = false := by
    by_contra hroot
    exact h [] (by simpa using hroot) List.nil_prefix
  induction position generalizing tree p with
  | nil =>
    rw [nulled_of_not_root hroot]
    exact congrArg some (node_mapParts _ tree)
  | cons step position ih =>
    rw [at?_nulled_cons hroot, at?]
    cases tree.parts[step]? with
    | none => rfl
    | some part =>
      have hinner : ∀ outer, p (step :: outer) = true → ¬outer <+: position := by
        intro outer houter hstart
        exact h (step :: outer) houter (List.cons_prefix_cons.2 ⟨rfl, hstart⟩)
      apply ih hinner
      by_contra hpart
      exact hinner [] (by simpa using hpart) List.nil_prefix

/-- Null is put at the positions of which `p` holds and nowhere else, as long as they are positions
of the tree. -/
theorem nullsAt_nulled (h : ∀ position, p position = true → (tree.at? position).isSome) :
    NullsAt (fun position => p position = true) tree (nulled p tree) where
  null := by
    intro position hp hfirst
    obtain ⟨value, hvalue⟩ := Option.isSome_iff_exists.1 (h position hp)
    rw [at?_nulled_of_first hp hfirst, hvalue]
    rfl
  nothingBelow := fun _ _ hp hstart hne => at?_nulled_below hp hstart hne
  kept := fun _ hfree => map_node_at?_nulled hfree

end RamlDoc.Yaml.Tree

namespace RamlDoc.Fixup

open Yaml

variable {tree : Tree} {path : KeyPath} {paths paths' : List KeyPath} {entries : Entries}
  {step : String} {position : List Nat}

/-! ## Where a path leads -/

/-- The position to which a path leads, if it leads through mappings to an entry: at each step the
first entry whose key has the text of the step. -/
def positionOf? : KeyPath → Tree → Option (List Nat)
  | [], _ => some []
  | step :: path, .mapping entries =>
    (entries.findIdx? fun entry => keyHasText entry.1 step).bind fun index =>
      entries[index]?.bind fun entry => (positionOf? path entry.2).map (index :: ·)
  | _ :: _, _ => none

/-- Whether one of some paths leads to a position. -/
def isReached (tree : Tree) (paths : List KeyPath) (position : List Nat) : Bool :=
  paths.any fun path => positionOf? path tree = some position

theorem isReached_iff :
    isReached tree paths position = true ↔
      ∃ path ∈ paths, positionOf? path tree = some position := by
  simp [isReached]

/-- A path leads into an entry through the first key with the text of its first step. -/
theorem positionOf?_cons_eq_some_iff :
    positionOf? (step :: path) tree = some position ↔
      ∃ entries index inner, ∃ hindex : index < entries.length, tree = .mapping entries ∧
        (entries.findIdx? fun entry => keyHasText entry.1 step) = some index ∧
          positionOf? path entries[index].2 = some inner ∧ position = index :: inner := by
  cases tree with
  | mapping entries =>
    simp only [positionOf?, Option.bind_eq_some_iff, Option.map_eq_some_iff]
    constructor
    · rintro ⟨index, hfind, entry, hentry, inner, hinner, rfl⟩
      obtain ⟨hindex, rfl⟩ := List.getElem?_eq_some_iff.1 hentry
      exact ⟨entries, index, inner, hindex, rfl, hfind, hinner, rfl⟩
    · rintro ⟨_, index, inner, hindex, heq, hfind, hinner, rfl⟩
      obtain rfl := Tree.mapping.inj heq
      exact ⟨index, hfind, entries[index], List.getElem?_eq_getElem hindex, inner, hinner, rfl⟩
  | _ => simp [positionOf?]

/-- At the position to which a path leads stands the value at its end. -/
theorem exists_value_of_positionOf? (h : positionOf? path tree = some position) :
    ∃ value, valueAt? path tree = some value ∧ tree.at? position = some value := by
  induction path generalizing tree position with
  | nil =>
    obtain rfl : [] = position := Option.some.inj h
    exact ⟨tree, rfl, rfl⟩
  | cons step path ih =>
    obtain ⟨entries, index, inner, hindex, rfl, hfind, hinner, rfl⟩ :=
      positionOf?_cons_eq_some_iff.1 h
    obtain ⟨value, hvalue, hat⟩ := ih hinner
    obtain ⟨hlt, htext, hfirst⟩ := List.findIdx?_eq_some_iff_getElem.1 hfind
    have hentry : (entries.find? fun entry => keyHasText entry.1 step) = some entries[index] :=
      List.find?_eq_some_iff_getElem.2 ⟨htext, index, hlt, rfl, by simpa using hfirst⟩
    have hpart : (Tree.mapping entries).parts[index]? = some entries[index].2 := by
      rw [Tree.parts, List.getElem?_map, List.getElem?_eq_getElem hindex]
      rfl
    refine ⟨value, ?_, ?_⟩
    · rw [valueAt?, hentry, Option.bind_some, hvalue]
    · rw [Tree.at?, hpart, Option.bind_some, hat]

/-! ## Clearing one path -/

/-- Changing the first entry with a key of some kind, in terms of where it is. -/
theorem changeFirst_mapIdx (kind : Tree → Bool) (change : Tree → Tree) (values : Nat → Tree → Tree)
    (entries : Entries) :
    changeFirst kind change (entries.mapIdx fun index entry => (entry.1, values index entry.2)) =
      entries.mapIdx fun index entry =>
        (entry.1, if (entries.findIdx? fun entry => kind entry.1) = some index then
          change (values index entry.2) else values index entry.2) := by
  induction entries generalizing values with
  | nil => rfl
  | cons entry entries ih =>
    rw [List.mapIdx_cons, changeFirst, List.mapIdx_cons]
    by_cases hkind : kind entry.1 = true
    · simp [hkind, List.findIdx?_cons]
    · simp [hkind, List.findIdx?_cons, ih]

/-- Clearing a path puts null at one more position: the one to which it leads in the tree without
the nulls. -/
theorem clearAt_nulled (path : KeyPath) (p : List Nat → Bool) (tree : Tree) :
    clearAt path (tree.nulled p) =
      tree.nulled fun position => p position || decide (positionOf? path tree = some position) := by
  induction path generalizing tree p with
  | nil =>
    rw [clearAt, Tree.nulled_of_root]
    simp [positionOf?]
  | cons step path ih =>
    by_cases hroot : p [] = true
    · -- a null at the root is in the way of the path
      rw [Tree.nulled_of_root hroot, Tree.nulled_of_root (by simp [hroot])]
      rfl
    have hfree : positionOf? (step :: path) tree ≠ some [] := by
      intro hnil
      obtain ⟨_, _, _, _, _, _, _, hcons⟩ := positionOf?_cons_eq_some_iff.1 hnil
      cases hcons
    rw [Tree.nulled_of_not_root (by simpa using hroot),
      Tree.nulled_of_not_root (by simpa [hfree] using hroot)]
    cases tree with
    | mapping entries =>
      rw [Tree.mapParts, Tree.mapParts, clearAt, changeFirst_mapIdx]
      refine congrArg Tree.mapping (List.mapIdx_eq_mapIdx_iff.2 fun index hindex => ?_)
      refine congrArg (Prod.mk entries[index].1) ?_
      split
      next hfind =>
        rw [ih]
        congr
        funext inner
        have hiff : positionOf? path entries[index].2 = some inner ↔
            positionOf? (step :: path) (.mapping entries) = some (index :: inner) := by
          rw [positionOf?_cons_eq_some_iff]
          constructor
          · intro hinner
            exact ⟨entries, index, inner, hindex, rfl, hfind, hinner, rfl⟩
          · rintro ⟨_, _, _, _, heq, -, hinner, hcons⟩
            obtain rfl := Tree.mapping.inj heq
            obtain ⟨rfl, rfl⟩ := List.cons.inj hcons
            exact hinner
        rw [decide_eq_decide.2 hiff]
      next hfind =>
        congr
        funext inner
        have hne : positionOf? (step :: path) (.mapping entries) ≠ some (index :: inner) := by
          intro hsome
          obtain ⟨_, _, _, _, heq, hfind', -, hcons⟩ := positionOf?_cons_eq_some_iff.1 hsome
          obtain rfl := Tree.mapping.inj heq
          obtain ⟨rfl, rfl⟩ := List.cons.inj hcons
          exact hfind hfind'
        simp [hne]
    | _ => simp [positionOf?, Tree.mapParts, clearAt]

/-! ## Clearing all paths -/

theorem restore_nulled (p : List Nat → Bool) (tree : Tree) (paths : List KeyPath) :
    restore (tree.nulled p) paths =
      tree.nulled fun position => p position || isReached tree paths position := by
  induction paths generalizing p with
  | nil => simp [restore, isReached]
  | cons path paths ih =>
    rw [restore_cons, clearAt_nulled, ih]
    congr
    funext position
    simp [isReached, Bool.or_assoc]

/-- Restoring puts null at the positions to which the paths lead in the tree as it is. -/
theorem restore_eq_nulled (tree : Tree) (paths : List KeyPath) :
    restore tree paths = tree.nulled (isReached tree paths) := by
  have hrestore := restore_nulled (fun _ => false) tree paths
  simpa only [Tree.nulled_nowhere, Bool.false_or] using hrestore

/-- What is restored depends on which paths there are, not on their order or how often. -/
theorem restore_congr (h : ∀ path, path ∈ paths ↔ path ∈ paths') (tree : Tree) :
    restore tree paths = restore tree paths' := by
  have hreached : isReached tree paths = isReached tree paths' := by
    funext position
    rw [Bool.eq_iff_iff, isReached_iff, isReached_iff]
    simp only [h]
  rw [restore_eq_nulled, restore_eq_nulled, hreached]

theorem restore_append (tree : Tree) (paths paths' : List KeyPath) :
    restore tree (paths ++ paths') = restore (restore tree paths) paths' :=
  List.foldl_append

theorem nullsAt_restore (tree : Tree) (paths : List KeyPath) :
    tree.NullsAt (fun position => ∃ path ∈ paths, positionOf? path tree = some position)
      (restore tree paths) := by
  have hinside : ∀ position, isReached tree paths position = true →
      (tree.at? position).isSome := by
    intro position hposition
    obtain ⟨path, -, hpath⟩ := isReached_iff.1 hposition
    obtain ⟨value, -, hvalue⟩ := exists_value_of_positionOf? hpath
    rw [hvalue, Option.isSome_some]
  rw [restore_eq_nulled]
  simpa only [isReached_iff] using Tree.nullsAt_nulled hinside

/-- Restoring depends on the set of the paths only, restoring twice is restoring once, and what is
restored is the one tree that has null at the positions to which the paths lead and is otherwise as
it was. -/
theorem restore_eq_iff_nullsAt (h : ∀ path, path ∈ paths ↔ path ∈ paths') (tree : Tree) :
    restore tree paths = restore tree paths' ∧
      restore (restore tree paths) paths = restore tree paths ∧
        ∀ result, restore tree paths = result ↔ tree.NullsAt
          (fun position => ∃ path ∈ paths, positionOf? path tree = some position) result := by
  refine ⟨restore_congr h tree, ?_, fun result => ⟨?_, ?_⟩⟩
  · rw [← restore_append]
    exact restore_congr (by simp) tree
  · rintro rfl
    exact nullsAt_restore tree paths
  · exact fun hnulls => (nullsAt_restore tree paths).unique hnulls

/-- One path runs through another, and the number `1` stands in front of the text `1`. -/
theorem restore_eq_iff_nullsAt_prefixes :
    (∀ path, path ∈ [["a", "b"], ["a"], ["1"]] ↔ path ∈ [["1"], ["a"], ["1"], ["a", "b"]]) ∧
      restore (.mapping [(.string "a", .mapping [(.string "b", .bool true)]),
          (.number (.integer 1), .bool true), (.string "1", .bool true)])
        [["1"], ["a"], ["1"], ["a", "b"]] =
          .mapping [(.string "a", .null), (.number (.integer 1), .null),
            (.string "1", .bool true)] := by
  have hsame : ∀ path, path ∈ [["a", "b"], ["a"], ["1"]] ↔
      path ∈ [["1"], ["a"], ["1"], ["a", "b"]] := by
    intro path
    simp only [List.mem_cons, List.not_mem_nil, or_false]
    tauto
  refine ⟨hsame, ?_⟩
  rw [← (restore_eq_iff_nullsAt hsame _).1]
  decide

end RamlDoc.Fixup
