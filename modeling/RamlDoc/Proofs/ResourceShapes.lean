import RamlDoc.Proofs.KeyedNodes

/-!
# The resource tree mirrors the mapping

A mapping is read as a forest of the same shape: a resource for each entry whose key is a path, in
order, with the verbs among the keys below it as its methods and the paths among them as the
resources in it (`Mirrors`). All other entries are passed over, whatever they are. This holds at any
depth as long as no resource is included from a file (`Resource.mirrors_of_readEntries`).
-/

namespace RamlDoc

open Yaml

/-- A key has a path: its text, tags apart, starts with a slash. -/
def HasPath (key : Tree) (path : String) : Prop :=
  key.asString? = some path ∧ path.toList.head? = some '/'

/-- The seven verbs that a key may be. -/
def verbNames : List String := ["get", "patch", "put", "post", "delete", "options", "head"]

theorem map_name_all : Verb.all.map Verb.name = verbNames := rfl

/-- The verbs among the keys of a mapping, tags apart, in order. -/
def verbKeys (entries : Entries) : List String :=
  entries.filterMap fun entry => entry.1.asString?.filter (· ∈ verbNames)

/-- The methods of a mapping: one for each verb among its keys, in order, and none is optional. -/
def MirrorsVerbs (entries : Entries) (methods : Block Method) : Prop :=
  methods ≠ some [] ∧
    methods.elements.map (fun method => (method.verb.name, method.optional)) =
      (verbKeys entries).map (·, false)

/-- A forest of resources has the shape of the entries of a mapping whose keys are paths. -/
inductive Mirrors : Entries → List Resource → Prop
  | nil : Mirrors [] []
  | other {key value : Tree} {entries : Entries} {resources : List Resource}
    (hkey : ∀ path, ¬HasPath key path) (hrest : Mirrors entries resources) :
    Mirrors ((key, value) :: entries) resources
  | leaf {key : Tree} {entries : Entries} {resource : Resource} {resources : List Resource}
    (hkey : HasPath key resource.path) (hmethods : resource.methods = none)
    (hbelow : resource.resources = none) (hrest : Mirrors entries resources) :
    Mirrors ((key, .null) :: entries) (resource :: resources)
  | node {key : Tree} {inner entries : Entries} {resource : Resource} {resources : List Resource}
    (hkey : HasPath key resource.path) (hmethods : MirrorsVerbs inner resource.methods)
    (hblock : resource.resources ≠ some []) (hbelow : Mirrors inner resource.children)
    (hrest : Mirrors entries resources) :
    Mirrors ((key, .mapping inner) :: entries) (resource :: resources)

/-- No resource of a mapping is an include directive, at any depth. -/
inductive PathsInline : Entries → Prop
  | intro {entries : Entries}
    (hinline : ∀ entry ∈ entries, ∀ path, HasPath entry.1 path → isInclude entry.2 = false)
    (hbelow : ∀ entry ∈ entries, ∀ path, HasPath entry.1 path → PathsInline entry.2.entries) :
    PathsInline entries

theorem PathsInline.nil : PathsInline [] := .intro (List.forall_mem_nil _) (List.forall_mem_nil _)

theorem PathsInline.cons {key value : Tree} {entries : Entries}
    (h : ∀ path, HasPath key path → isInclude value = false ∧ PathsInline value.entries)
    (hrest : PathsInline entries) : PathsInline ((key, value) :: entries) := by
  cases hrest with
  | intro hinline hbelow =>
    exact .intro (List.forall_mem_cons.2 ⟨fun path hpath => (h path hpath).1, hinline⟩)
      (List.forall_mem_cons.2 ⟨fun path hpath => (h path hpath).2, hbelow⟩)

theorem Block.eq_none_of_elements {α : Type} {block : Block α} (hblock : block ≠ some [])
    (h : block.elements = []) : block = none := by
  cases block with
  | none => rfl
  | some items => exact absurd (congrArg some h) hblock

variable {source : Source} {entries : Entries}

/-! ## Methods -/

namespace Method

/-- Where no method is optional, a key that ends with a question mark is no verb. -/
theorem verbOf?_false (key : String) : verbOf? false key = (Verb.ofName? key).map (·, false) := by
  unfold verbOf?
  split
  next front hfront =>
    have hnone : Verb.ofName? key = none := by
      refine List.find?_eq_none.2 fun verb _ hname => ?_
      have hlast := congrArg List.getLast? (Text.beforeEnd?_eq_some.1 hfront)
      rw [← of_decide_eq_true hname, List.getLast?_concat] at hlast
      cases verb <;> exact absurd hlast (by decide)
    rw [hnone]
    rfl
  next => rfl

theorem verbOf?_eq_none_iff {key : String} :
    verbOf? false key = none ↔ key ∉ verbNames := by
  rw [← map_name_all]
  simp [verbOf?_false, Verb.ofName?, List.find?_eq_none]

theorem eq_of_verbOf? {key : String} {verb : Verb} {optional : Bool}
    (h : verbOf? false key = some (verb, optional)) : verb.name = key ∧ optional = false := by
  refine ⟨name_of_verbOf? h, ?_⟩
  rw [verbOf?_false] at h
  obtain ⟨_, -, heq⟩ := Option.map_eq_some_iff.1 h
  exact (Prod.mk.inj heq).2.symm

/-- One method is read for each verb. -/
theorem yields_ofVerbs (entries : Entries) :
    Yields (fun methods => methods.map (fun method => (method.verb.name, method.optional)) =
      (verbKeys entries).map (·, false)) (ofVerbs source false entries) := by
  induction entries with
  | nil => exact .pure rfl
  | cons entry entries ih =>
    obtain ⟨key, value⟩ := entry
    unfold ofVerbs
    split
    next hverb =>
      have hskip : verbKeys ((key, value) :: entries) = verbKeys entries := by
        refine List.filterMap_cons_none (Option.filter_eq_none_iff.2 fun text htext => ?_)
        rw [htext, Option.bind_some, verbOf?_eq_none_iff] at hverb
        simpa using hverb
      rwa [hskip]
    next verb optional hverb =>
      obtain ⟨text, htext, hverb⟩ := Option.bind_eq_some_iff.1 hverb
      obtain ⟨rfl, rfl⟩ := eq_of_verbOf? hverb
      have hpick : verbKeys ((key, value) :: entries) = verb.name :: verbKeys entries := by
        refine List.filterMap_cons_some (Option.filter_eq_some_iff.2 ⟨htext, ?_⟩)
        cases verb <;> decide
      refine .bind fun method hmethod => .bind fun methods hmethods => .pure ?_
      obtain ⟨hname, hoptional⟩ := yields_verb verb false method hmethod
      rw [hpick, List.map_cons, List.map_cons, hname, hoptional, ih methods hmethods]

theorem yields_readAll_mirrors (entries : Entries) :
    Yields (MirrorsVerbs entries) (readAll source false entries) := by
  refine .map fun methods hmethods => ⟨?_, ?_⟩
  · cases methods <;> nofun
  · rw [Block.elements_ofList]
    exact yields_ofVerbs entries methods hmethods

end Method

/-! ## Resources -/

namespace Resource

theorem pathOf?_eq_some_iff {key : Tree} {path : String} :
    pathOf? key = some path ↔ HasPath key path := by
  simp [pathOf?, HasPath, Option.filter_eq_some_iff]

/-- What a resource has from the entries of its mapping, and from how the resources in it are
read. -/
theorem yields_tree (path : String) (entries : Entries) (readChildren : Reading (List Resource)) :
    Yields (fun resource => resource.path = path ∧ MirrorsVerbs entries resource.methods ∧
        resource.resources ≠ some [] ∧ readChildren.result = .ok resource.children)
      (ofEntries source path entries readChildren) := by
  refine .bind fun _ _ => .bind fun _ _ => .bind fun methods hmethods =>
    .bind fun resources hresources => .bind fun _ _ => .bind fun _ _ => .bind fun _ _ =>
      .bind fun _ _ => .pure ⟨rfl, Method.yields_readAll_mirrors entries methods hmethods, ?_, ?_⟩
  · cases resources <;> nofun
  · rw [children, Block.elements_ofList]
    exact hresources

/-- One resource in its place mirrors its entry if the resources in it mirror the entries below. -/
theorem mirrors_cons {key value : Tree} {path : String} {resource : Resource}
    {resources : List Resource} (hkey : HasPath key path) (hinline : isInclude value = false)
    (h : (read source path value).result = .ok resource)
    (hbelow : ∀ below, (readEntries source value.entries).result = .ok below →
      Mirrors value.entries below)
    (hrest : Mirrors entries resources) :
    Mirrors ((key, value) :: entries) (resource :: resources) := by
  rw [read, Source.openSlot_of_inline hinline, pure_bind] at h
  change (readContent source path value).result = .ok resource at h
  cases value with
  | null =>
    rw [readContent] at h
    obtain ⟨rfl, ⟨hmethods, hverbs⟩, hblock, hchildren⟩ := yields_tree path [] _ resource h
    refine .leaf hkey (Block.eq_none_of_elements hmethods ?_)
      (Block.eq_none_of_elements hblock (Except.ok.inj hchildren).symm) hrest
    exact List.map_eq_nil_iff.1 hverbs
  | mapping inner =>
    rw [readContent] at h
    obtain ⟨rfl, hmethods, hblock, hchildren⟩ := yields_tree path inner _ resource h
    exact .node hkey hmethods hblock (hbelow _ hchildren) hrest
  | _ =>
    unfold readContent at h
    cases h

/-- The resources in a mapping mirror its entries if at each path those below do. -/
theorem mirrors_of_below {resources : List Resource}
    (hinline : ∀ entry ∈ entries, ∀ path, HasPath entry.1 path → isInclude entry.2 = false)
    (hbelow : ∀ entry ∈ entries, ∀ path, HasPath entry.1 path → ∀ below,
      (readEntries source entry.2.entries).result = .ok below → Mirrors entry.2.entries below)
    (h : (readEntries source entries).result = .ok resources) : Mirrors entries resources := by
  induction entries generalizing resources with
  | nil =>
    rw [readEntries] at h
    cases h
    exact .nil
  | cons entry entries ih =>
    obtain ⟨key, value⟩ := entry
    obtain ⟨hhead, hothers⟩ := List.forall_mem_cons.1 hinline
    obtain ⟨hinside, hbeside⟩ := List.forall_mem_cons.1 hbelow
    rw [readEntries] at h
    split at h
    next hnone =>
      refine .other (fun path hpath => ?_) (ih hothers hbeside h)
      rw [pathOf?_eq_some_iff.2 hpath] at hnone
      cases hnone
    next path hpath =>
      have hkey := pathOf?_eq_some_iff.1 hpath
      rw [Reading.result_bind] at h
      obtain ⟨resource, hresource, h⟩ := exists_of_bind_eq_ok h
      rw [Reading.result_bind] at h
      obtain ⟨rest, hrest, h⟩ := exists_of_bind_eq_ok h
      obtain rfl := Except.ok.inj h
      exact mirrors_cons hkey (hhead path hkey) hresource (hinside path hkey)
        (ih hothers hbeside hrest)

/-- The resources that are read from a mapping have the shape of its entries: one resource for each
key that is a path, in order, with a method for each verb among the keys below it, in order and not
optional, and with the resources below it; a null has neither. No other entry is a resource or a
method. Included resources apart, this holds at any depth. -/
theorem mirrors_of_readEntries {resources : List Resource} (hinline : PathsInline entries)
    (h : (readEntries source entries).result = .ok resources) : Mirrors entries resources := by
  induction hinline generalizing resources with
  | intro hinline _ ih =>
    exact mirrors_of_below hinline (fun entry hentry path hpath _ => ih entry hentry path hpath) h

/-- Entries with two resources, one of them with a resource in it. -/
def nestedEntries : Entries :=
  [(.string "title", .string "Users"),
    (.tagged "t" (.string "/users"), .mapping [
      (.string "get", .null),
      (.string "/\x7bid\x7d", .mapping [(.string "get?", .null), (.string "delete", .null)])]),
    (.string "/health", .null)]

theorem pathsInline_nestedEntries : PathsInline nestedEntries := by
  have hother {key : String} (h : key.toList.head? ≠ some '/') (path : String)
      (hpath : HasPath (.string key) path) : False := by
    obtain ⟨hkey, hslash⟩ := hpath
    obtain rfl := Option.some.inj hkey
    exact h hslash
  refine .cons (fun path h => (hother (by decide) path h).elim) ?_
  refine .cons (fun _ _ => ⟨rfl, ?_⟩) (.cons (fun _ _ => ⟨rfl, .nil⟩) .nil)
  refine .cons (fun path h => (hother (by decide) path h).elim) (.cons (fun _ _ => ⟨rfl, ?_⟩) .nil)
  refine .cons (fun path h => (hother (by decide) path h).elim) ?_
  exact .cons (fun path h => (hother (by decide) path h).elim) .nil

/-- The resources that they are read as. -/
def nestedResources : List Resource :=
  [{ path := "/users"
     methods := some [{ verb := .get }]
     resources := some [{ path := "/\x7bid\x7d", methods := some [{ verb := .delete }] }] },
    { path := "/health" }]

theorem result_readEntries_nestedEntries :
    (readEntries ⟨.empty, .detached {}⟩ nestedEntries).result = .ok nestedResources := by
  unfold nestedEntries nestedResources
  cbv

/-- A tag on a path does not matter, and a verb with a question mark is no method. -/
theorem mirrors_nestedEntries :
    PathsInline nestedEntries ∧
      (readEntries ⟨.empty, .detached {}⟩ nestedEntries).result = .ok nestedResources ∧
        Mirrors nestedEntries nestedResources :=
  ⟨pathsInline_nestedEntries, result_readEntries_nestedEntries,
    mirrors_of_readEntries pathsInline_nestedEntries result_readEntries_nestedEntries⟩

end Resource

end RamlDoc
