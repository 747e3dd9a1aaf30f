import RamlDoc.Proofs.IncludeSlots
import RamlDoc.Proofs.KeyedNodes
import RamlDoc.Proofs.NestedIncludes

/-!
# The trees that are taken up

What is taken up when a root is read lies where readers come to from the root: in the tree of the
root or in a file that is included from there. So where all these trees have keys that are distinct
without their tags, so have those that are taken up (`Site.untaggedDistinct_of_takesUp`). Where no
file can be included, it is enough that the tree of the root has (`Visit.UntaggedDistinct.of_alone`).
-/

namespace RamlDoc

open Yaml

namespace Visit

/-- Wherever a reader goes, mappings have keys that are distinct without their tags. -/
def UntaggedDistinct (visit : Visit) : Prop :=
  ∀ inner, Relation.ReflTransGen LeadsTo visit inner → inner.tree.entries.UntaggedDistinct

namespace UntaggedDistinct

variable {source : Source} {tree : Tree} {entries : Entries}

theorem step {outer inner : Visit} (h : outer.UntaggedDistinct) (hstep : outer.LeadsTo inner) :
    inner.UntaggedDistinct := fun _ hinner => h _ (.head hstep hinner)

/-- Where no file can be included, readers go to the parts of a tree only. -/
theorem of_alone (hfile : source.context.file = none) (h : tree.UntaggedDistinct) :
    UntaggedDistinct ⟨source, tree⟩ := by
  intro inner hinner
  suffices hpart : inner.source = source ∧ inner.tree.UntaggedDistinct from hpart.2.entries
  induction hinner with
  | refl => exact ⟨rfl, h⟩
  | tail _ hstep ih =>
    cases hstep with
    | part hpart => exact ⟨ih.1, ih.2.part hpart⟩
    | included htarget hincluded =>
      have hfile := (congrArg (·.context.file) ih.1).trans hfile
      rw [Source.result_resolveTarget_alone hfile] at hincluded
      cases hincluded

theorem null : UntaggedDistinct ⟨source, .null⟩ := by
  intro inner hinner
  rcases Relation.ReflTransGen.cases_head hinner with rfl | ⟨next, hstep, -⟩
  · exact .nil
  · cases hstep with
    | part hpart => cases hpart
    | included htarget => cases htarget

theorem all {visit : Visit} (h : visit.UntaggedDistinct) : visit.tree.UntaggedDistinct := by
  intro position
  induction position generalizing visit with
  | nil =>
    intro entries hentries
    have hdistinct := h visit .refl
    rwa [Option.some.inj hentries] at hdistinct
  | cons step position ih =>
    intro entries hentries
    obtain ⟨inside, hinside, hentries⟩ := Option.bind_eq_some_iff.1 hentries
    exact ih (h.step (.part (List.mem_of_getElem? hinside))) entries hentries

theorem entry (h : UntaggedDistinct ⟨source, .mapping entries⟩) {key value : Tree}
    (hentry : (key, value) ∈ entries) : UntaggedDistinct ⟨source, value⟩ :=
  h.step (.part (List.mem_map_of_mem hentry))

theorem field (h : UntaggedDistinct ⟨source, .mapping entries⟩) {key : String} {value : Tree}
    (hfield : Entries.field? entries key = some value) : UntaggedDistinct ⟨source, value⟩ := by
  obtain ⟨entry, hentry, rfl⟩ := Option.map_eq_some_iff.1 (Option.filter_eq_some_iff.1 hfield).1
  exact h.entry (List.mem_of_find?_eq_some hentry)

theorem resolve (h : UntaggedDistinct ⟨source, tree⟩) {fragment : Option FragmentKind}
    {included : Included source}
    (hincluded : (source.resolve tree fragment).result = .ok included) :
    UntaggedDistinct ⟨included.source, included.tree⟩ := by
  obtain ⟨target, htarget, hincluded⟩ := Source.resolve_eq_ok_iff.1 hincluded
  refine h.step (.included ?_ hincluded)
  rw [Library.pathOf?, includeTarget?_eq_some_iff.2 htarget]
  rfl

theorem openSlot (h : UntaggedDistinct ⟨source, tree⟩) {fragment : Option FragmentKind}
    {slot : Slot source tree} (hslot : (source.openSlot fragment tree).result = .ok slot) :
    UntaggedDistinct ⟨slot.origin, slot.content⟩ := by
  unfold Source.openSlot at hslot
  split at hslot
  · rw [Reading.result_map] at hslot
    obtain ⟨included, hincluded, hslot⟩ := exists_of_bind_eq_ok hslot
    obtain rfl := Except.ok.inj hslot
    exact h.resolve hincluded
  · split at hslot
    · cases hslot
    · obtain rfl := Except.ok.inj hslot
      exact h

theorem openBlock {source : Source} {tree : Tree} (h : UntaggedDistinct ⟨source, tree⟩)
    {slot : Slot source tree} (hslot : (source.openBlock tree).result = .ok slot) :
    UntaggedDistinct ⟨slot.origin, slot.content⟩ := by
  rw [Source.openBlock] at hslot
  split at hslot
  · rw [Reading.result_bind] at hslot
    obtain ⟨included, hincluded, hslot⟩ := exists_of_bind_eq_ok hslot
    rw [Reading.result_bind] at hslot
    obtain ⟨inner, hinner, hslot⟩ := exists_of_bind_eq_ok hslot
    obtain rfl := Except.ok.inj hslot
    have := included.nested
    exact (h.resolve hincluded).openBlock hinner
  · obtain rfl := Except.ok.inj hslot
    exact h
termination_by source.remaining

theorem opensTo (h : UntaggedDistinct ⟨source, .mapping entries⟩) {field : String} {origin : Source}
    {content : Tree} (hopens : OpensTo source entries field origin content) :
    UntaggedDistinct ⟨origin, content⟩ := by
  obtain ⟨tree, slot, hfield, hslot, rfl, rfl⟩ := hopens
  exact (h.field hfield).openBlock hslot

theorem follow (h : UntaggedDistinct ⟨source, tree⟩) {kind : SiteKind} {origin : Source}
    {content : Tree} (hfollow : (kind.follow source tree).result = .ok (origin, content)) :
    UntaggedDistinct ⟨origin, content⟩ := by
  unfold SiteKind.follow at hfollow
  split at hfollow
  · split at hfollow
    next target htarget =>
      rw [Reading.result_bind] at hfollow
      obtain ⟨included, hincluded, hfollow⟩ := exists_of_bind_eq_ok hfollow
      cases hfollow
      exact h.step (.included htarget hincluded)
    next => cases hfollow; exact h
  · split at hfollow
    · rw [Reading.result_bind] at hfollow
      obtain ⟨slot, hslot, hfollow⟩ := exists_of_bind_eq_ok hfollow
      cases hfollow
      exact h.openSlot hslot
    · cases hfollow; exact h

end UntaggedDistinct

end Visit

namespace Site

variable {source : Source} {entries : Entries} {site : Site}

/-- The visit of what stands at a site. -/
def visit (site : Site) : Visit := ⟨site.source, site.tree⟩

theorem untaggedDistinct_of_mem_atKeys (h : Visit.UntaggedDistinct ⟨source, .mapping entries⟩)
    {kind? : Tree → Option SiteKind} (hsite : site ∈ atKeys source entries kind?) :
    site.visit.UntaggedDistinct := by
  obtain ⟨kind, _, tree⟩ := site
  obtain ⟨⟨key, value⟩, hentry, -, rfl, rfl⟩ := hsite
  exact h.entry hentry

theorem untaggedDistinct_of_lies (h : Visit.UntaggedDistinct ⟨source, .mapping entries⟩)
    (hsite : Lies source entries site) : site.visit.UntaggedDistinct := by
  induction hsite with
  | atKeys hsite => exact untaggedDistinct_of_mem_atKeys h hsite
  | @atField _ site _ _ hsite =>
    obtain ⟨kind, _, tree⟩ := site
    obtain ⟨hfield, -, rfl⟩ := hsite
    exact h.field hfield
  | atBlock hsite =>
    obtain ⟨tree, slot, declared, hfield, hslot, hcontent, hsite⟩ := hsite
    have hopens := (h.field hfield).openBlock hslot
    rw [hcontent] at hopens
    exact untaggedDistinct_of_mem_atKeys hopens hsite
  | under hfield _ ih => exact ih (h.field hfield)
  | type => exact h
  | absent => exact .null

theorem untaggedDistinct_of_reaches {root : Site} (h : root.visit.UntaggedDistinct)
    (hsite : root.Reaches site) : site.visit.UntaggedDistinct := by
  induction hsite with
  | refl => exact h
  | tail _ hinner ih =>
    obtain ⟨origin, entries, hfollow, hinner⟩ := hinner
    exact untaggedDistinct_of_lies (ih.follow hfollow) (.of_mem_ofEntries hinner)

/-- Only trees are taken up that readers come to from the root. -/
theorem untaggedDistinct_of_takesUp {root : Site} (h : root.visit.UntaggedDistinct) {tree : Tree}
    (htree : root.TakesUp tree) : tree.UntaggedDistinct := by
  cases htree with
  | content hsite hfollow => exact ((untaggedDistinct_of_reaches h hsite).follow hfollow).all
  | block hsite hfollow _ hopens =>
    exact (((untaggedDistinct_of_reaches h hsite).follow hfollow).opensTo hopens).all
  | described hsite hfollow hdescribed _ hopens =>
    have hdistinct := ((untaggedDistinct_of_reaches h hsite).follow hfollow).field hdescribed
    exact (hdistinct.opensTo hopens).all

end Site

end RamlDoc
