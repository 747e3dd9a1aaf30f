import Mathlib
import RamlDoc.Proofs.IncludeSlots

/-!
# Transparent includes

A directive may lead through files that hold nothing but a directive to a file with a tree
(`Source.Forwards`). In the place of a block it is read like that tree through any number of files.
In the place of a node it is read like the tree if there is only one file: the first file is the
only one that is opened, and a directive in it is taken for a value. `Source.Forwards.transparent`
states all of this.
-/

namespace RamlDoc

open Yaml

/-- The file at a path holds a tree. -/
def FileSystem.Holds (files : FileSystem) (options : Options) (path : Path) (tree : Tree) : Prop :=
  ∃ text, files.load path = .ok text ∧ (Fixup.readTree options text.toList).result = .ok tree

theorem FileSystem.Holds.unique {files : FileSystem} {options : Options} {path : Path}
    {tree other : Tree} (h : files.Holds options path tree) (h' : files.Holds options path other) :
    tree = other := by
  obtain ⟨text, htext, htree⟩ := h
  obtain ⟨text', htext', hother⟩ := h'
  obtain rfl := Except.ok.inj (htext.symm.trans htext')
  exact Except.ok.inj (htree.symm.trans hother)

/-- In the file at a path, a tree leads along other paths to a tree at the end: each path is that of
a directive, and the file at it holds the next tree. -/
inductive FileSystem.Leads (files : FileSystem) (options : Options) :
    Path → Tree → List Path → Tree → Prop
  | here {file : Path} {tree : Tree} : Leads files options file tree [] tree
  | along {file path : Path} {tree next last : Tree} {paths : List Path} {target : String}
    (hdirective : Directive tree target) (hpath : path = (file.parent?.getD ⟨""⟩).join target)
    (hholds : files.Holds options path next) (hrest : Leads files options path next paths last) :
    Leads files options file tree (path :: paths) last

namespace Source

/-- A tree leads along distinct files, none of which is being read and not too many of them. -/
structure Forwards (source : Source) (tree : Tree) (paths : List Path) (last : Tree) : Prop where
  leads : ∃ file, source.context.file = some file ∧
    source.files.Leads source.context.options file tree paths last
  distinct : (paths.map source.files.identity).Nodup
  fresh : ∀ path ∈ paths, source.files.identity path ∉ source.context.chain
  depth_le : source.context.depth + paths.length ≤ source.context.options.maxIncludeDepth

variable {source : Source} {tree last : Tree} {path : Path} {paths : List Path}

/-- The source of an included file. -/
def inFile (source : Source) (path : Path) : Source :=
  ⟨source.files, { source.context with
    file := some path, chain := source.files.identity path :: source.context.chain }⟩

namespace Forwards

/-- The first file is entered, and what it holds leads along the others. -/
theorem resolve (h : source.Forwards tree (path :: paths) last) :
    ∃ included : Included source, (source.resolve tree none).result = .ok included ∧
      source.files.Holds source.context.options path included.tree ∧
      included.source.Forwards included.tree paths last := by
  obtain ⟨⟨file, hfile, hleads⟩, hdistinct, hfresh, hdepth⟩ := h
  cases hleads with
  | @along _ _ _ next _ _ target hdirective hpath hholds hrest =>
    obtain ⟨text, htext, htree⟩ := hholds
    obtain ⟨hnext, hdistinct⟩ := List.nodup_cons.1 hdistinct
    obtain ⟨hnew, hfresh⟩ := List.forall_mem_cons.1 hfresh
    rw [List.length_cons] at hdepth
    have henter : source.context.enter source.files path = .ok (source.inFile path).context :=
      FileContext.enter_eq_ok.2 ⟨hnew, by omega, rfl⟩
    have hresolvePath : source.context.resolvePath target = .ok path := by
      rw [FileContext.resolvePath, hfile, hpath]
    refine ⟨⟨source.inFile path, next, FileContext.remaining_lt_of_enter henter⟩, ?_, ?_, ?_⟩
    · exact resolve_eq_ok_iff.2 ⟨target, hdirective, resolveTarget_eq_ok_iff.2
        ⟨path, text, hresolvePath, henter, rfl, htext, rfl, htree⟩⟩
    · exact ⟨text, htext, htree⟩
    · refine ⟨⟨path, rfl, hrest⟩, hdistinct, ?_, ?_⟩
      · intro other hother hmem
        obtain heq | hmem := List.mem_cons.1 hmem
        · exact hnext (heq ▸ List.mem_map_of_mem hother)
        · exact hfresh other hother hmem
      · change (source.inFile path).context.chain.length - 1 + paths.length ≤ _
        simp only [inFile, List.length_cons, FileContext.depth] at hdepth ⊢
        omega

/-- What leads nowhere is the last tree. -/
theorem eq_of_nil (h : source.Forwards tree [] last) : tree = last := by
  obtain ⟨⟨file, -, hleads⟩, -⟩ := h
  cases hleads
  rfl

/-- What leads on is a directive. -/
theorem directive (h : source.Forwards tree (path :: paths) last) :
    ∃ target, Directive tree target := by
  obtain ⟨⟨file, -, hleads⟩, -⟩ := h
  cases hleads with
  | along hdirective => exact ⟨_, hdirective⟩

/-- A block is read like the last tree in the source of the last file. -/
theorem result_readBlock (field : BlockField) (h : source.Forwards tree paths last)
    (hnull : NullUntagged last) :
    ∃ inner : Source, (field.read source (field.alone tree)).result =
      (field.read inner (field.alone last)).result := by
  -- by induction on the files still to enter, from whatever source
  induction paths generalizing source tree with
  | nil => exact ⟨source, by rw [h.eq_of_nil]⟩
  | cons path paths ih =>
    obtain ⟨included, hresolve, -, hrest⟩ := h.resolve
    obtain ⟨inner, hinner⟩ := ih hrest
    -- a file on the way holds a directive, which is not null
    have hfound : NullUntagged included.tree := by
      cases paths with
      | nil => rwa [hrest.eq_of_nil]
      | cons => exact hrest.directive.choose_spec.nullUntagged
    exact ⟨inner, (field.result_read_of_resolve hresolve hfound).trans hinner⟩

/-- Includes of a tree without directives. A block that is included along any number of files has
the result of the tree in its place. A node that is included from one file has it too. A node that
is included along several files has the result of the directive in the first, taken for a value. -/
theorem transparent (h : source.Forwards tree paths last) (hfree : IncludeFree last) :
    (∀ (field : BlockField) (entries inline : Entries),
      Entries.get? entries field.key = some tree → Entries.get? inline field.key = some last →
      field.Admits last → (field.read source entries).result = (field.read source inline).result) ∧
    (∀ slot : NodeSlot, paths.length = 1 → slot.Admits last →
      (slot.read source tree).result = (slot.read source last).result) ∧
    (∀ slot : NodeSlot, 1 < paths.length → ∃ first directive target,
      paths.head? = some first ∧ source.files.Holds source.context.options first directive ∧
        Directive directive target ∧
        (slot.read source tree).result = slot.ofDirective directive) := by
  refine ⟨?_, ?_, ?_⟩
  · intro field entries inline hentries hinline hadmits
    rw [field.read_eq_read_alone source hentries, field.read_eq_read_alone source hinline]
    obtain ⟨inner, hinner⟩ := h.result_readBlock field hadmits.1
    exact hinner.trans (field.result_read_eq hfree hadmits inner source)
  · intro slot hone hadmits
    obtain ⟨path, rfl⟩ := List.length_eq_one_iff.1 hone
    obtain ⟨included, hresolve, -, hrest⟩ := h.resolve
    obtain rfl := hrest.eq_of_nil
    rw [slot.result_read_of_resolve hresolve hfree.isInclude hadmits]
    exact slot.result_read_eq hfree hadmits included.source source
  · intro slot hseveral
    match paths, hseveral with
    | first :: second :: others, _ =>
      obtain ⟨included, hresolve, hholds, hrest⟩ := h.resolve
      obtain ⟨target, htarget⟩ := hrest.directive
      exact ⟨first, included.tree, target, rfl, hholds, htarget,
        slot.result_read_of_directive hresolve htarget⟩

end Forwards

/-- Types in a directory, and files at the root that only lead there. -/
def relays : FileSystem :=
  ⟨[(["api.raml"], .file (some "#%RAML 1.0\ntitle: Users\n")),
    (["types.raml"], .file (some "!include lib/types.raml\n")),
    (["user.raml"], .file (some "!include lib/user.raml\n")),
    (["lib"], .directory),
    (["lib", "types.raml"], .file (some "User: object\n")),
    (["lib", "user.raml"], .file (some "type: object\n"))]⟩

/-- The root document beside the files. -/
def relaying : Source := ⟨relays, .forFile relays ⟨"/api.raml"⟩ {}⟩

/-- A directive with a tag. -/
def including (target : String) : Tree := .tagged includeTag (.string target)

theorem holds_relays :
    relays.Holds {} ⟨"/types.raml"⟩ (including "lib/types.raml") ∧
    relays.Holds {} ⟨"/user.raml"⟩ (including "lib/user.raml") ∧
    relays.Holds {} ⟨"/lib/types.raml"⟩ (.mapping [(.string "User", .string "object")]) ∧
    relays.Holds {} ⟨"/lib/user.raml"⟩ (.mapping [(.string "type", .string "object")]) :=
  ⟨⟨_, rfl, by cbv⟩, ⟨_, rfl, by cbv⟩, ⟨_, rfl, by cbv⟩, ⟨_, rfl, by cbv⟩⟩

theorem forwards_types : relaying.Forwards (including "types.raml")
    [⟨"/types.raml"⟩, ⟨"/lib/types.raml"⟩] (.mapping [(.string "User", .string "object")]) where
  leads := ⟨_, rfl, .along (.tagged rfl) (by decide) holds_relays.1
    (.along (.tagged rfl) (by decide) holds_relays.2.2.1 .here)⟩
  distinct := by decide
  fresh := by decide
  depth_le := by decide

theorem forwards_user : relaying.Forwards (including "user.raml")
    [⟨"/user.raml"⟩, ⟨"/lib/user.raml"⟩] (.mapping [(.string "type", .string "object")]) where
  leads := ⟨_, rfl, .along (.tagged rfl) (by decide) holds_relays.2.1
    (.along (.tagged rfl) (by decide) holds_relays.2.2.2 .here)⟩
  distinct := by decide
  fresh := by decide
  depth_le := by decide

theorem forwards_user_once : relaying.Forwards (including "lib/user.raml")
    [⟨"/lib/user.raml"⟩] (.mapping [(.string "type", .string "object")]) where
  leads := ⟨_, rfl, .along (.tagged rfl) (by decide) holds_relays.2.2.2 .here⟩
  distinct := by decide
  fresh := by decide
  depth_le := by decide

theorem result_read_user : ((NodeSlot.type "User").read relaying
    (.mapping [(.string "type", .string "object")])).result =
      .ok { name := "User", facets := .ofExpression "object" } := by cbv

/-- The types are found behind two files and a type behind one. -/
theorem transparent_relays :
    (BlockField.types.read relaying [(.string "types", including "types.raml")]).result =
      .ok (some [{ name := "User", facets := .ofExpression "object" }]) ∧
    ((NodeSlot.type "User").read relaying (including "lib/user.raml")).result =
      .ok { name := "User", facets := .ofExpression "object" } := by
  constructor
  · refine ((forwards_types.transparent (by decide)).1 .types _
      [(.string "types", .mapping [(.string "User", .string "object")])] rfl rfl ?_).trans ?_
    · exact ⟨nofun, nofun⟩
    · change (relaying.openBlock _ >>= _).result = _
      rw [openBlock_of_inline rfl]
      rfl
  · have hread := (forwards_user_once.transparent (by decide)).2.1 (.type "User") rfl trivial
    exact hread.trans result_read_user

/-- A type is not found behind two files. -/
theorem read_ne_of_second_directive :
    relaying.Forwards (including "user.raml") [⟨"/user.raml"⟩, ⟨"/lib/user.raml"⟩]
      (.mapping [(.string "type", .string "object")]) ∧
    IncludeFree (.mapping [(.string "type", .string "object")]) ∧
    ((NodeSlot.type "User").read relaying (including "user.raml")).result ≠
      ((NodeSlot.type "User").read relaying
        (.mapping [(.string "type", .string "object")])).result := by
  refine ⟨forwards_user, by decide, ?_⟩
  obtain ⟨included, hresolve, hholds, hrest⟩ := forwards_user.resolve
  obtain ⟨target, hdirective⟩ := hrest.directive
  rw [NodeSlot.result_read_of_directive _ hresolve hdirective, result_read_user,
    hholds.unique holds_relays.2.1]
  intro h
  cases h

end Source

end RamlDoc
