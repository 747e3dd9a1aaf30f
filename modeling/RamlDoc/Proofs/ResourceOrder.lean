import Mathlib.Data.List.DropRight
import RamlDoc.Proofs.KeyedDocuments
import RamlDoc.Proofs.ResourceShapes

/-!
# The order of resources

The loop over a stack lists the resources of a document in the order of the recursion: each is
followed by those in it (`Resource.depthFirst_eq`). A place in a forest of resources is found by a
position: which resource of the forest, which of the resources in that one, and so on. The list has
one entry for each position, in lexicographic order, so every resource comes once, behind the
resources around it and behind those declared before it (`Document.resourcesDepthFirst_preorder`).
Its path puts together the paths on the way to it, without slashes at the end of what comes before
(`Place.toList_path`), and it starts with a slash in every document that is read.
-/

namespace RamlDoc

/-! ## The loop and the recursion -/

namespace Resource

theorem visit_eq (parent : String) (resource : Resource) :
    visit parent resource = (resource.absolutePath parent, resource) ::
      visitList (resource.absolutePath parent) resource.children := by
  obtain ⟨_, _, _, _, _, resources, _, _, _, _⟩ := resource
  cases resources <;> rfl

theorem visitList_eq (parent : String) (forest : List Resource) :
    visitList parent forest = (withPaths parent forest).flatMap fun entry =>
      entry :: visitList entry.1 entry.2.children := by
  induction forest with
  | nil => rfl
  | cons resource forest ih => rw [visitList, visit_eq, ih]; rfl

/-- The loop gives each resource on the stack, followed by those in it. -/
theorem depthFirst_eq (stack : List (String × Resource)) :
    depthFirst stack = stack.flatMap fun entry => entry :: visitList entry.1 entry.2.children := by
  fun_induction depthFirst stack with
  | case1 => rfl
  | case2 path resource stack ih =>
    rw [ih, List.flatMap_append, ← visitList_eq, List.flatMap_cons, List.cons_append]

end Resource

theorem Document.resourcesDepthFirst_eq (document : Document) :
    document.resourcesDepthFirst = Resource.visitList "" document.resources.elements := by
  rw [resourcesDepthFirst, Resource.depthFirst_eq, ← Resource.visitList_eq]

/-! ## Places -/

/-- Where a resource stands in a forest: the resources around it, outermost first. -/
structure Place where
  around : List Resource
  resource : Resource

namespace Place

/-- The place inside one more resource. -/
def within (outer : Resource) (place : Place) : Place :=
  { place with around := outer :: place.around }

/-- The path of the place below a given one: each path on the way goes behind what comes before it,
without slashes at the end of that. -/
def pathBelow (parent : String) (place : Place) : String :=
  place.resource.absolutePath
    (place.around.foldl (fun path outer => outer.absolutePath path) parent)

/-- The path of the place. -/
def path (place : Place) : String := place.pathBelow ""

/-- The place at a position of a forest. -/
def at? : (forest : List Resource) → (position : List Nat) → Option Place
  | _, [] => none
  | forest, [index] => forest[index]?.map fun resource => ⟨[], resource⟩
  | forest, index :: position =>
    forest[index]?.bind fun outer => (at? outer.children position).map (within outer)

variable {resource : Resource} {forest : List Resource} {position : List Nat}

theorem at?_nil (position : List Nat) : at? [] position = none := by
  match position with
  | [] => rfl
  | [_] => rfl
  | _ :: _ :: _ => rfl

theorem at?_zero (hne : position ≠ []) :
    at? (resource :: forest) (0 :: position) =
      (at? resource.children position).map (within resource) := by
  cases position with
  | nil => exact absurd rfl hne
  | cons index position => rfl

theorem at?_succ (index : Nat) :
    at? (resource :: forest) ((index + 1) :: position) = at? forest (index :: position) := by
  cases position <;> rfl

/-- The path and the resource at a position, below a parent with a given path. -/
def listedAt? (parent : String) (forest : List Resource) (position : List Nat) :
    Option (String × Resource) :=
  (at? forest position).map fun place => (place.pathBelow parent, place.resource)

theorem listedAt?_zero (parent : String) (hne : position ≠ []) :
    listedAt? parent (resource :: forest) (0 :: position) =
      listedAt? (resource.absolutePath parent) resource.children position := by
  rw [listedAt?, at?_zero hne, Option.map_map]
  rfl

theorem listedAt?_succ (parent : String) (index : Nat) :
    listedAt? parent (resource :: forest) ((index + 1) :: position) =
      listedAt? parent forest (index :: position) := by
  rw [listedAt?, at?_succ, listedAt?]

end Place

namespace Resource

theorem sizeOf_children_lt (resource : Resource) : sizeOf resource.children < sizeOf resource := by
  obtain ⟨_, _, _, _, _, resources, _, _, _, _⟩ := resource
  cases resources <;> simp [children] <;> omega

/-- What holds of a forest whenever it holds of the forest in its first resource and of the others
holds of every forest. -/
theorem induction_on_forest {P : List Resource → Prop} (nil : P [])
    (cons : ∀ resource forest, P resource.children → P forest → P (resource :: forest))
    (forest : List Resource) : P forest :=
  match forest with
  | [] => nil
  | resource :: forest =>
    have := sizeOf_children_lt resource
    cons resource forest (induction_on_forest nil cons resource.children)
      (induction_on_forest nil cons forest)
termination_by sizeOf forest

end Resource

/-! ## The order -/

/-- The same position behind one more resource. -/
def behindFirst : List Nat → List Nat
  | [] => []
  | index :: position => (index + 1) :: position

/-- The positions of a forest, each once and in lexicographic order. -/
structure Lists (forest : List Resource) (positions : List (List Nat)) : Prop where
  ordered : positions.Pairwise (· < ·)
  complete : ∀ position, position ∈ positions ↔ (Place.at? forest position).isSome

theorem behindFirst_lt_behindFirst {position other : List Nat} :
    behindFirst position < behindFirst other ↔ position < other := by
  cases position <;> cases other <;> simp [behindFirst, List.cons_lt_cons_iff]

theorem behindFirst_eq_nil_iff {position : List Nat} :
    behindFirst position = [] ↔ position = [] := by
  cases position <;> simp [behindFirst]

theorem behindFirst_eq_cons_succ_iff {position rest : List Nat} {index : Nat} :
    behindFirst position = (index + 1) :: rest ↔ position = index :: rest := by
  cases position <;> simp [behindFirst]

theorem zero_lt_behindFirst {position : List Nat} (hne : position ≠ []) (rest : List Nat) :
    0 :: rest < behindFirst position := by
  cases position with
  | nil => exact absurd rfl hne
  | cons index position => exact List.cons_lt_cons_iff.2 (.inl (Nat.succ_pos index))

namespace Lists

variable {resource : Resource} {forest : List Resource} {below beside : List (List Nat)}

theorem nil : Lists [] [] :=
  ⟨.nil, fun position => by rw [Place.at?_nil]; exact iff_of_false nofun nofun⟩

theorem ne_nil {positions : List (List Nat)} (h : Lists forest positions) :
    ∀ position ∈ positions, position ≠ [] := by
  rintro position hposition rfl
  cases (h.complete []).1 hposition

theorem ordered_cons (hbelow : Lists resource.children below) (hbeside : Lists forest beside) :
    ([0] :: (below.map (0 :: ·) ++ beside.map behindFirst)).Pairwise (· < ·) := by
  rw [List.pairwise_cons, List.pairwise_append, List.pairwise_map, List.pairwise_map,
    List.forall_mem_append, List.forall_mem_map, List.forall_mem_map]
  refine ⟨⟨fun position hposition => ?_, fun position hposition => ?_⟩, ?_, ?_, ?_⟩
  · obtain ⟨index, rest, rfl⟩ := List.exists_cons_of_ne_nil (hbelow.ne_nil position hposition)
    exact List.cons_lt_cons_iff.2 (.inr ⟨rfl, List.nil_lt_cons index rest⟩)
  · exact zero_lt_behindFirst (hbeside.ne_nil position hposition) []
  · exact hbelow.ordered.imp fun h => List.cons_lt_cons_iff.2 (.inr ⟨rfl, h⟩)
  · exact hbeside.ordered.imp behindFirst_lt_behindFirst.2
  · refine List.forall_mem_map.2 fun inside _ => List.forall_mem_map.2 fun position hposition => ?_
    exact zero_lt_behindFirst (hbeside.ne_nil position hposition) inside

theorem complete_cons (hbelow : Lists resource.children below) (hbeside : Lists forest beside)
    (position : List Nat) :
    position ∈ [0] :: (below.map (0 :: ·) ++ beside.map behindFirst) ↔
      (Place.at? (resource :: forest) position).isSome := by
  rw [List.mem_cons, List.mem_append, List.mem_map, List.mem_map]
  match position with
  | [] =>
    refine iff_of_false ?_ nofun
    rintro (h | ⟨_, -, h⟩ | ⟨position, hposition, h⟩)
    · cases h
    · cases h
    · exact hbeside.ne_nil position hposition (behindFirst_eq_nil_iff.1 h)
  | [0] => exact iff_of_true (.inl rfl) rfl
  | 0 :: index :: rest =>
    rw [Place.at?_zero (List.cons_ne_nil _ _), Option.isSome_map, ← hbelow.complete]
    refine ⟨?_, fun h => .inr (.inl ⟨_, h, rfl⟩)⟩
    rintro (h | ⟨position, hposition, h⟩ | ⟨position, hposition, h⟩)
    · cases h
    · obtain rfl := (List.cons.inj h).2
      exact hposition
    · have hlt := zero_lt_behindFirst (hbeside.ne_nil position hposition) (index :: rest)
      exact absurd hlt (h ▸ List.lt_irrefl _)
  | (index + 1) :: rest =>
    rw [Place.at?_succ, ← hbeside.complete]
    refine ⟨?_, fun h => .inr (.inr ⟨_, h, rfl⟩)⟩
    rintro (h | ⟨_, -, h⟩ | ⟨position, hposition, h⟩)
    · cases h
    · cases h
    · obtain rfl := behindFirst_eq_cons_succ_iff.1 h
      exact hposition

/-- The positions of a forest are that of its first resource, those of the resources in it and those
of the others. -/
theorem cons (hbelow : Lists resource.children below) (hbeside : Lists forest beside) :
    Lists (resource :: forest) ([0] :: (below.map (0 :: ·) ++ beside.map behindFirst)) :=
  ⟨ordered_cons hbelow hbeside, complete_cons hbelow hbeside⟩

end Lists

/-- The recursion gives the entries at all positions in order. -/
theorem exists_lists (forest : List Resource) :
    ∃ positions, Lists forest positions ∧
      ∀ parent, positions.map (Place.listedAt? parent forest) =
        (Resource.visitList parent forest).map some := by
  induction forest using Resource.induction_on_forest with
  | nil => exact ⟨[], .nil, fun _ => rfl⟩
  | cons resource forest ihbelow ihbeside =>
    obtain ⟨below, hbelow, hinside⟩ := ihbelow
    obtain ⟨beside, hbeside, hothers⟩ := ihbeside
    refine ⟨_, hbelow.cons hbeside, fun parent => ?_⟩
    rw [Resource.visitList, Resource.visit_eq, List.map_append, List.map_cons, List.map_cons,
      List.map_append, List.map_map, List.map_map, ← hinside, ← hothers]
    refine congrArg₂ List.cons rfl (congrArg₂ (· ++ ·) ?_ ?_)
    · exact List.map_congr_left fun position hposition =>
        Place.listedAt?_zero parent (hbelow.ne_nil position hposition)
    · refine List.map_congr_left fun position hposition => ?_
      obtain ⟨index, rest, rfl⟩ := List.exists_cons_of_ne_nil (hbeside.ne_nil position hposition)
      exact Place.listedAt?_succ parent index

/-! ## Paths -/

theorem Text.dropTailWhile_append (p : Char → Bool) (cs ds : List Char) :
    dropTailWhile p (dropTailWhile p cs ++ ds) = dropTailWhile p cs ++ dropTailWhile p ds := by
  -- character by character from the end
  induction ds using List.reverseRecOn with
  | nil =>
    rw [List.append_nil, show dropTailWhile p [] = [] from rfl, List.append_nil]
    exact List.rdropWhile_idempotent p cs
  | append_singleton ds c ih =>
    rw [← List.append_assoc]
    by_cases hc : p c
    · have hpos (front : List Char) : dropTailWhile p (front ++ [c]) = dropTailWhile p front :=
        List.rdropWhile_concat_pos p front c hc
      rw [hpos, hpos, ih]
    · have hneg (front : List Char) : dropTailWhile p (front ++ [c]) = front ++ [c] :=
        List.rdropWhile_concat_neg p front c hc
      rw [hneg, hneg, List.append_assoc]

/-- A path without the slashes at its end. -/
def withoutSlashes (path : String) : List Char := Text.dropTailWhile (· = '/') path.toList

namespace Resource

theorem toList_absolutePath (resource : Resource) (parent : String) :
    (resource.absolutePath parent).toList = withoutSlashes parent ++ resource.path.toList := by
  simp [absolutePath, withoutSlashes]

/-- Slashes at the end of a path put together are those of its last part. -/
theorem withoutSlashes_absolutePath (resource : Resource) (parent : String) :
    withoutSlashes (resource.absolutePath parent) =
      withoutSlashes parent ++ withoutSlashes resource.path := by
  rw [withoutSlashes, toList_absolutePath]
  exact Text.dropTailWhile_append _ _ _

end Resource

/-- The path of a place is that of its resource behind the paths of those around it, each without
the slashes at its end. -/
theorem Place.toList_path (place : Place) :
    place.path.toList =
      place.around.flatMap (fun outer => withoutSlashes outer.path) ++
        place.resource.path.toList := by
  have haround (around : List Resource) (parent : String) :
      withoutSlashes (around.foldl (fun path outer => outer.absolutePath path) parent) =
        withoutSlashes parent ++ around.flatMap fun outer => withoutSlashes outer.path := by
    induction around generalizing parent with
    | nil => simp
    | cons outer around ih =>
      rw [List.foldl_cons, ih, Resource.withoutSlashes_absolutePath, List.append_assoc,
        List.flatMap_cons]
  rw [path, pathBelow, Resource.toList_absolutePath, haround]
  rfl

/-! ## Slashes at the start -/

/-- All paths in a forest start with a slash. -/
inductive Rooted : List Resource → Prop
  | nil : Rooted []
  | cons {resource : Resource} {forest : List Resource}
    (hpath : resource.path.toList.head? = some '/') (hbelow : Rooted resource.children)
    (hbeside : Rooted forest) : Rooted (resource :: forest)

namespace Resource

theorem head?_absolutePath {resource : Resource} {parent : String}
    (hpath : resource.path.toList.head? = some '/') (hparent : ∀ c ∈ parent.toList.head?, c = '/') :
    (resource.absolutePath parent).toList.head? = some '/' := by
  obtain ⟨slashes, hslashes⟩ : withoutSlashes parent <+: parent.toList :=
    List.rdropWhile_prefix _ _
  rw [toList_absolutePath, List.head?_append, hpath]
  cases hhead : (withoutSlashes parent).head? with
  | none => rfl
  | some c =>
    have hc : c ∈ parent.toList.head? := by
      rw [← hslashes, List.head?_append, hhead]
      rfl
    rw [hparent c hc]
    rfl

end Resource

/-- The absolute paths in a rooted forest start with a slash as well. -/
theorem Rooted.head?_of_mem {forest : List Resource} (h : Rooted forest) {parent : String}
    (hparent : ∀ c ∈ parent.toList.head?, c = '/') :
    ∀ entry ∈ Resource.visitList parent forest, entry.1.toList.head? = some '/' := by
  induction h generalizing parent with
  | nil => exact List.forall_mem_nil _
  | @cons resource forest hpath _ _ ihbelow ihbeside =>
    have hhead := Resource.head?_absolutePath hpath hparent
    rw [Resource.visitList, Resource.visit_eq, List.cons_append, List.forall_mem_cons,
      List.forall_mem_append]
    refine ⟨hhead, ihbelow fun c hc => ?_, ihbeside hparent⟩
    exact (Option.some.inj (hhead.symm.trans hc)).symm

namespace Resource

open Yaml

mutual

/-- The resources that are read are rooted, in included files as well. -/
theorem yields_rooted (source : Source) (path : String) (tree : Tree) :
    Yields (fun resource => Rooted resource.children) (read source path tree) := by
  rw [read]
  exact .bind fun slot _ =>
    have := slot.within
    yields_rooted_readContent slot.origin path slot.content
termination_by (source.remaining, sizeOf tree, 1)
decreasing_by
  simp only [Prod.lex_def]
  omega

theorem yields_rooted_readContent (source : Source) (path : String) (tree : Tree) :
    Yields (fun resource => Rooted resource.children) (readContent source path tree) := by
  cases tree with
  | mapping entries =>
    rw [readContent]
    exact fun resource h => yields_rooted_readEntries source entries _
      (yields_tree path entries _ resource h).2.2.2
  | null =>
    rw [readContent]
    intro resource h
    rw [← Except.ok.inj (yields_tree path [] _ resource h).2.2.2]
    exact .nil
  | _ =>
    unfold readContent
    exact .fail _
termination_by (source.remaining, sizeOf tree, 0)

theorem yields_rooted_readEntries (source : Source) (entries : List (Tree × Tree)) :
    Yields Rooted (readEntries source entries) := by
  match entries with
  | [] =>
    rw [readEntries]
    exact .pure .nil
  | (key, value) :: entries =>
    rw [readEntries]
    split
    · exact yields_rooted_readEntries source entries
    next path hpath =>
      refine .bind fun resource hresource => .bind fun resources hresources => .pure ?_
      have hslash : resource.path.toList.head? = some '/' := by
        rw [yields_path path resource hresource]
        exact (pathOf?_eq_some_iff.1 hpath).2
      exact .cons hslash (yields_rooted source path value resource hresource)
        (yields_rooted_readEntries source entries resources hresources)
termination_by (source.remaining, sizeOf entries, 0)

end

end Resource

namespace Document

theorem yields_rooted (source : Source) (tree : Yaml.Tree) :
    Yields (fun document => Rooted document.resources.elements) (ofTree source tree) := by
  cases tree with
  | mapping entries =>
    refine .bind fun _ _ => .bind fun _ _ => .bind fun _ _ => .bind fun _ _ => .bind fun _ _ => ?_
    refine .bind fun _ _ => .bind fun _ _ => .bind fun _ _ => .bind fun _ _ => .bind fun _ _ => ?_
    refine .bind fun _ _ => .bind fun _ _ => .bind fun resources hresources => .pure ?_
    rw [Block.elements_ofList]
    exact Resource.yields_rooted_readEntries source entries resources hresources
  | _ => exact .fail _

/-- The loop over a stack lists the resources of a document as the recursion does. The list has one
entry for each position in the forest of resources, in lexicographic order: every resource comes
once, behind those around it and behind those before it. The path of an entry puts together the
paths on the way to it, each behind what comes before, without slashes at the end of that; so only
the last part keeps the slashes at its end. In a document that is read it starts with a slash. -/
theorem resourcesDepthFirst_preorder (document : Document) :
    document.resourcesDepthFirst = Resource.visitBlock "" document.resources ∧
      (∃ positions, Lists document.resources.elements positions ∧
        document.resourcesDepthFirst.map some = positions.map fun position =>
          (Place.at? document.resources.elements position).map fun place =>
            (place.path, place.resource)) ∧
      (∀ place : Place, place.path.toList =
        place.around.flatMap (fun outer => withoutSlashes outer.path) ++
          place.resource.path.toList) ∧
      ∀ source text, (ofText source text).result = .ok document →
        ∀ entry ∈ document.resourcesDepthFirst, entry.1.toList.head? = some '/' := by
  refine ⟨?_, ?_, Place.toList_path, fun source text h => ?_⟩
  · rw [resourcesDepthFirst_eq]
    cases document.resources <;> rfl
  · obtain ⟨positions, hlists, hentries⟩ := exists_lists document.resources.elements
    refine ⟨positions, hlists, ?_⟩
    rw [resourcesDepthFirst_eq, ← hentries ""]
    rfl
  · obtain ⟨tree, -, htree⟩ := exists_tree_of_ofText h
    rw [resourcesDepthFirst_eq]
    exact (yields_rooted source tree document htree).head?_of_mem nofun

/-- A document with a resource in a resource. -/
def nestedText : String := "#%RAML 1.0\ntitle: T\n/a/:\n /b:\n"

/-- The entries of its tree. -/
def nestedRoot : Yaml.Entries :=
  [(.string "title", .string "T"), (.string "/a/", .mapping [(.string "/b", .null)])]

/-- The document. -/
def nestedDocument : Document where
  title := "T"
  resources := some [{ path := "/a/", resources := some [{ path := "/b" }] }]

theorem result_ofTree_nestedRoot :
    (ofTree ⟨.empty, .detached {}⟩ (.mapping nestedRoot)).result = .ok nestedDocument := by
  have hdeclarations : Declarations.readOfDocument ⟨.empty, .detached {}⟩ nestedRoot = pure {} := by
    unfold nestedRoot
    cbv
  have huses : Library.readUses ⟨.empty, .detached {}⟩ nestedRoot = pure none := by
    unfold nestedRoot
    cbv
  have hresources : Resource.readEntries ⟨.empty, .detached {}⟩ nestedRoot =
      pure nestedDocument.resources.elements := by
    unfold nestedRoot nestedDocument
    cbv
  rw [ofTree, ofEntries, hdeclarations, huses, hresources]
  rfl

theorem result_ofString_nestedText : (ofString nestedText).result = .ok nestedDocument := by
  have hheader : Header.checkRoot nestedText.toList = .ok () := by
    unfold nestedText
    cbv
  have htree : (Fixup.readTree {} nestedText.toList).result = .ok (.mapping nestedRoot) := by
    unfold nestedText nestedRoot
    cbv
  have hfree : IncludeFree (.mapping nestedRoot) := by
    unfold IncludeFree nestedRoot
    decide
  exact (result_ofText_of_tree ⟨.empty, .detached {}⟩ hheader htree hfree).trans
    result_ofTree_nestedRoot

/-- The slash between the two resources of the document comes once. -/
theorem resourcesDepthFirst_nestedDocument :
    (ofString nestedText).result = .ok nestedDocument ∧
      nestedDocument.resourcesDepthFirst.map Prod.fst = ["/a/", "/a/b"] ∧
      ∀ entry ∈ nestedDocument.resourcesDepthFirst, entry.1.toList.head? = some '/' := by
  refine ⟨result_ofString_nestedText, ?_, ?_⟩
  · rw [resourcesDepthFirst_eq]
    decide
  · exact (resourcesDepthFirst_preorder nestedDocument).2.2.2 ⟨.empty, .detached {}⟩
      nestedText.toList result_ofString_nestedText

end Document

end RamlDoc
