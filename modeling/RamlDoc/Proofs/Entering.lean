import RamlDoc.Include.Resolve

/-!
# Entering included files

What a followed include says, all steps at once (`Source.resolveTarget_eq_ok_iff`): the target leads
to a path, the path to a text file that is not on the chain, and the text to a tree. The chain of
the new context is longer by the identity of that file, and the identity is where the file stands
(`FileSystem.entry?_identity_of_load`).
-/

namespace RamlDoc

open Yaml

namespace FileSystem

variable {files : FileSystem} {path : Path} {text : String}

theorem load_eq_ok_iff :
    files.load path = .ok text ↔ files.find? path = some (.file (some text)) := by
  unfold load
  split
  next h => simp [h]
  next h => simp [h]
  next h => simp [h]
  next h => simp [h]

/-- A text that can be loaded stands at the identity of its path. -/
theorem entry?_identity_of_load (h : files.load path = .ok text) :
    files.entry? (files.identity path) = some (.file (some text)) := by
  obtain ⟨location, hlocation, hentry⟩ := Option.bind_eq_some_iff.1 (load_eq_ok_iff.1 h)
  rw [identity, hlocation]
  exact hentry

end FileSystem

namespace FileContext

variable (files : FileSystem) (context : FileContext) {path : Path}

theorem enter_of_mem (h : files.identity path ∈ context.chain) :
    context.enter files path = .error (.circularInclude path) := if_pos h

theorem enter_of_deep (hfresh : files.identity path ∉ context.chain)
    (hdeep : context.options.maxIncludeDepth ≤ context.depth) :
    context.enter files path =
      .error (.includesTooDeep path context.options.maxIncludeDepth) := by
  rw [enter, if_neg hfresh, if_pos hdeep]

theorem isSome_of_resolvePath {context : FileContext} {target : String} {path : Path}
    (h : context.resolvePath target = .ok path) : context.file.isSome := by
  unfold resolvePath at h
  split at h
  · cases h
  · next hfile =>
    rw [hfile]
    rfl

/-- An entered file is one include deeper, if there is a file around it. -/
theorem depth_of_enter {files : FileSystem} {context entered : FileContext} {path : Path}
    (hchain : context.chain ≠ []) (h : context.enter files path = .ok entered) :
    entered.depth = context.depth + 1 := by
  obtain ⟨-, -, rfl⟩ := enter_eq_ok.1 h
  have := List.length_pos_iff.2 hchain
  simp only [depth, List.length_cons]
  omega

end FileContext

namespace Source

variable {source : Source} {path : Path} {context : FileContext} {error : Error}

theorem directive_eq_ok_iff {tree : Tree} {target : String} :
    directive tree = .ok target ↔ includeTarget? tree = some target := by
  unfold directive
  cases includeTarget? tree with
  | none => simp
  | some found => simp

theorem enter_eq_error (h : source.context.enter source.files path = .error error) :
    source.enter path = .error error := by
  unfold enter
  split
  next hother => rw [h] at hother; rw [Except.error.inj hother]
  next hother => rw [h] at hother; cases hother

theorem enter_eq_ok (h : source.context.enter source.files path = .ok context) :
    source.enter path = .ok ⟨{ source with context }, FileContext.remaining_lt_of_enter h⟩ := by
  unfold enter
  split
  next hother => rw [h] at hother; cases hother
  next hother =>
    rw [h] at hother
    obtain rfl := Except.ok.inj hother
    rfl

theorem context_of_enter {entered : { entered : Source // entered.remaining < source.remaining }}
    (h : source.enter path = .ok entered) :
    source.context.enter source.files path = .ok entered.val.context ∧
      entered.val.files = source.files := by
  cases hcontext : source.context.enter source.files path with
  | error error => rw [enter_eq_error hcontext] at h; cases h
  | ok context =>
    rw [enter_eq_ok hcontext] at h
    obtain rfl := Except.ok.inj h
    exact ⟨rfl, rfl⟩

/-- The rest of an include once the file is entered. -/
theorem resolveTarget_of_enter {target : String} {fragment : Option FragmentKind}
    (hpath : source.context.resolvePath target = .ok path)
    (henter : source.context.enter source.files path = .ok context) :
    source.resolveTarget target fragment = (do
      let text ← source.files.load path
      liftM (fragment.forM (Header.checkFragment text.toList path))
      Reading.note (.includeResolved target path fragment context.depth)
      let tree ← Fixup.readTree source.context.options text.toList
      return ⟨{ source with context }, tree, FileContext.remaining_lt_of_enter henter⟩) := by
  unfold resolveTarget
  rw [hpath, Reading.ok_bind, enter_eq_ok henter, Reading.ok_bind]
  cases fragment <;> rfl

theorem resolveTarget_of_refused {target : String} {fragment : Option FragmentKind}
    (hpath : source.context.resolvePath target = .ok path)
    (henter : source.context.enter source.files path = .error error) :
    source.resolveTarget target fragment = Reading.fail error := by
  unfold resolveTarget
  rw [hpath, Reading.ok_bind, enter_eq_error henter, Reading.error_bind]

/-- The steps of an include, without the event noted on the way. -/
theorem result_resolveTarget (source : Source) (target : String)
    (fragment : Option FragmentKind) :
    (source.resolveTarget target fragment).result = (do
      let path ← source.context.resolvePath target
      let entered ← source.enter path
      let text ← source.files.load path
      fragment.forM (Header.checkFragment text.toList path)
      let tree ← (Fixup.readTree source.context.options text.toList).result
      return ⟨entered.val, tree, entered.property⟩) := by
  unfold resolveTarget
  cases fragment <;> simp only [Reading.result_bind, Reading.result_monadLift,
    Reading.result_note, Reading.result_pure] <;> rfl

/-- An include succeeds exactly when each of its steps does. -/
theorem resolveTarget_eq_ok_iff {target : String} {fragment : Option FragmentKind}
    {included : Included source} :
    (source.resolveTarget target fragment).result = .ok included ↔
      ∃ path text, source.context.resolvePath target = .ok path ∧
        source.context.enter source.files path = .ok included.source.context ∧
        included.source.files = source.files ∧ source.files.load path = .ok text ∧
        fragment.forM (Header.checkFragment text.toList path) = .ok () ∧
        (Fixup.readTree source.context.options text.toList).result = .ok included.tree := by
  rw [result_resolveTarget]
  constructor
  · intro h
    obtain ⟨path, hpath, h⟩ := exists_of_bind_eq_ok h
    obtain ⟨entered, hentered, h⟩ := exists_of_bind_eq_ok h
    obtain ⟨text, htext, h⟩ := exists_of_bind_eq_ok h
    obtain ⟨⟨⟩, hheader, h⟩ := exists_of_bind_eq_ok h
    obtain ⟨tree, htree, h⟩ := exists_of_bind_eq_ok h
    obtain rfl := Except.ok.inj h
    obtain ⟨hcontext, hfiles⟩ := context_of_enter hentered
    exact ⟨path, text, hpath, hcontext, hfiles, htext, hheader, htree⟩
  · rintro ⟨path, text, hpath, hcontext, hfiles, htext, hheader, htree⟩
    obtain ⟨⟨files, context⟩, tree, nested⟩ := included
    obtain rfl := hfiles
    rw [hpath]
    change (source.enter path >>= _) = _
    rw [enter_eq_ok hcontext]
    change (source.files.load path >>= _) = _
    rw [htext]
    change (fragment.forM (Header.checkFragment text.toList path) >>= _) = _
    rw [hheader]
    change ((Fixup.readTree source.context.options text.toList).result >>= _) = _
    rw [htree]
    rfl

/-- What is included lies in the same files and under the same options, in a text file that was not
on the chain and is now. -/
theorem enters_of_resolveTarget {target : String} {fragment : Option FragmentKind}
    {included : Included source}
    (h : (source.resolveTarget target fragment).result = .ok included) :
    ∃ path text, source.files.load path = .ok text ∧
      source.files.identity path ∉ source.context.chain ∧
      source.context.depth < source.context.options.maxIncludeDepth ∧
      included.source = ⟨source.files, { source.context with
        file := some path, chain := source.files.identity path :: source.context.chain }⟩ := by
  obtain ⟨path, text, -, hcontext, hfiles, htext, -, -⟩ := resolveTarget_eq_ok_iff.1 h
  obtain ⟨hfresh, hdepth, hentered⟩ := FileContext.enter_eq_ok.1 hcontext
  exact ⟨path, text, htext, hfresh, hdepth, congr (congrArg Source.mk hfiles) hentered⟩

end Source

end RamlDoc
