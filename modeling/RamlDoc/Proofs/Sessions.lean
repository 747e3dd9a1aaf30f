import Mathlib
import RamlDoc.Proofs.Entering

/-!
# Sessions of includes

A session is a stack of file contexts over files that may change at any time. A caller includes a
file from the innermost context and enters what it gets, or does not, reads the text of a file, or
leaves a context. Identities are computed anew at each include, so they may differ from those that
the same path had before. Still each context is the root or is entered from the one around it by
putting one fresh identity on the chain, and depth, options and paths are as they should be
(`Session.coheres_run`).
-/

namespace RamlDoc

open Yaml

/-- What a caller may do next. -/
inductive Call where
  | resolve (tree : Tree) (fragment : Option FragmentKind) (enters : Bool)
  | resolveTarget (target : String) (fragment : Option FragmentKind) (enters : Bool)
  | readText (tree : Tree)
  | leave
  /-- The files are changed: some are written, some are removed. -/
  | change (files : FileSystem)

/-- Whether the context of an included file is entered. -/
def Call.enters : Call → Bool
  | .resolve _ _ enters | .resolveTarget _ _ enters => enters
  | .readText _ | .leave | .change _ => false

/-- File contexts, the innermost first, over files that change. -/
structure Session where
  files : FileSystem
  /-- The states that the files had before. -/
  past : List FileSystem
  current : FileContext
  outer : List FileContext

namespace Session

/-- The contexts of a session, the innermost first. -/
def stack (session : Session) : List FileContext := session.current :: session.outer

/-- The states that the files have had so far. -/
def seen (session : Session) : List FileSystem := session.files :: session.past

/-- Where the innermost context includes from. -/
def source (session : Session) : Source := ⟨session.files, session.current⟩

/-- The context of a root document in a file, or of a text in memory. -/
def rootOf (files : FileSystem) (path? : Option Path) (options : Options) : FileContext :=
  match path? with
  | some path => .forFile files path options
  | none => .detached options

def start (files : FileSystem) (path? : Option Path) (options : Options) : Session :=
  ⟨files, [], rootOf files path? options, []⟩

/-- What a call gives back: an error, or for an include the context of the file. -/
def reply (session : Session) : Call → Except Error (Option FileContext)
  | .resolve tree fragment _ =>
    (session.source.resolve tree fragment).result.map fun included => some included.source.context
  | .resolveTarget target fragment _ =>
    (session.source.resolveTarget target fragment).result.map fun included =>
      some included.source.context
  | .readText tree => (session.source.readText tree).result.map fun _ => none
  | .leave | .change _ => .ok none

/-- The context of an included file is put on the stack. -/
def enter (session : Session) (context : FileContext) : Session :=
  { session with current := context, outer := session.stack }

/-- The innermost context is left, unless it is the root. -/
def leave (session : Session) : Session :=
  match session.outer with
  | [] => session
  | parent :: outer => { session with current := parent, outer }

/-- The context that a call gives back is entered, if the caller wants it. -/
def follow (session : Session) (call : Call) : Session :=
  match session.reply call with
  | .ok (some context) => if call.enters then session.enter context else session
  | _ => session

def step (session : Session) : Call → Session
  | .leave => session.leave
  | .change files => { session with files, past := session.seen }
  | call => session.follow call

def run (session : Session) (calls : List Call) : Session := calls.foldl step session

end Session

theorem exists_of_map_eq_ok {ε α β : Type} {result : Except ε α} {f : α → β} {value : β}
    (h : result.map f = .ok value) : ∃ first, result = .ok first ∧ f first = value := by
  cases result with
  | error => cases h
  | ok first => exact ⟨first, rfl, Except.ok.inj h⟩

/-- What is true of a context of a session, told with the contexts around it and the states of the
files so far. -/
structure Coherent (root : FileContext) (seen : List FileSystem) (context : FileContext)
    (outer : List FileContext) : Prop where
  nodup : context.chain.Nodup
  options_eq : context.options = root.options
  depth_eq : context.depth = outer.length
  depth_le : context.depth ≤ root.options.maxIncludeDepth
  root_eq : outer = [] → context = root
  /-- The context is entered from the one around it: its file was read, and its chain is longer by
  what identified the file then. -/
  entered : ∀ parent ∈ outer.head?, ∃ files ∈ seen, ∃ target path text,
    parent.resolvePath target = .ok path ∧ files.load path = .ok text ∧
      context.file = some path ∧ context.chain = files.identity path :: parent.chain

namespace Coherent

variable {root context : FileContext} {seen : List FileSystem} {outer : List FileContext}

/-- More states of the files do no harm. -/
theorem mono {more : List FileSystem} (h : Coherent root seen context outer)
    (hsubset : seen ⊆ more) : Coherent root more context outer where
  nodup := h.nodup
  options_eq := h.options_eq
  depth_eq := h.depth_eq
  depth_le := h.depth_le
  root_eq := h.root_eq
  entered parent hparent := by
    obtain ⟨files, hfiles, hread⟩ := h.entered parent hparent
    exact ⟨files, hsubset hfiles, hread⟩

theorem chain_ne_nil (h : Coherent root seen context outer)
    (hroot : root.file.isSome → root.chain ≠ []) (hfile : context.file.isSome) :
    context.chain ≠ [] := by
  cases outer with
  | nil =>
    obtain rfl := h.root_eq rfl
    exact hroot hfile
  | cons parent outer =>
    obtain ⟨files, -, target, path, text, -, -, -, hchain⟩ := h.entered parent rfl
    rw [hchain]
    exact List.cons_ne_nil _ _

/-- What is included from a context is coherent on top of it. -/
theorem included {files : FileSystem} (h : Coherent root seen context outer)
    (hroot : root.file.isSome → root.chain ≠ []) (hfiles : files ∈ seen) {target : String}
    {fragment : Option FragmentKind} {included : Included ⟨files, context⟩}
    (hresolved : ((Source.mk files context).resolveTarget target fragment).result = .ok included) :
    Coherent root seen included.source.context (context :: outer) := by
  obtain ⟨path, text, hpath, henter, -, htext, -, -⟩ := Source.resolveTarget_eq_ok_iff.1 hresolved
  have hfile := FileContext.isSome_of_resolvePath hpath
  have hdepth := FileContext.depth_of_enter (h.chain_ne_nil hroot hfile) henter
  obtain ⟨hfresh, hlimit, hentered⟩ := FileContext.enter_eq_ok.1 henter
  rw [hentered] at hdepth ⊢
  exact {
    nodup := List.nodup_cons.2 ⟨hfresh, h.nodup⟩
    options_eq := h.options_eq
    depth_eq := by
      rw [hdepth, h.depth_eq]
      rfl
    depth_le := by
      rw [hdepth, ← h.options_eq]
      exact hlimit
    root_eq := fun hnil => by cases hnil
    entered := by
      rintro _ ⟨rfl⟩
      exact ⟨files, hfiles, target, path, text, hpath, htext, rfl, rfl⟩ }

end Coherent

namespace Session

variable {session : Session} {root : FileContext}

/-- Each context of a session is coherent on top of those around it. -/
def Coheres (root : FileContext) (session : Session) : Prop :=
  ∀ context outer, context :: outer <:+ session.stack → Coherent root session.seen context outer

theorem chain_ne_nil_rootOf (files : FileSystem) (path? : Option Path) (options : Options)
    (h : (rootOf files path? options).file.isSome) : (rootOf files path? options).chain ≠ [] := by
  cases path? with
  | none => cases h
  | some path => exact List.cons_ne_nil _ _

theorem coheres_start (files : FileSystem) (path? : Option Path) (options : Options) :
    (start files path? options).Coheres (rootOf files path? options) := by
  intro context outer h
  obtain h | h := List.suffix_cons_iff.1 h
  rotate_left
  · cases List.suffix_nil.1 h
  obtain ⟨rfl, rfl⟩ := List.cons.inj h
  exact {
    nodup := by
      cases path? with
      | none => exact List.nodup_nil
      | some path => exact List.nodup_singleton _
    options_eq := rfl
    depth_eq := by
      cases path? <;> rfl
    depth_le := by
      cases path? <;> exact Nat.zero_le _
    root_eq := fun _ => rfl
    entered := fun _ h => by cases h }

/-- A call that gives back a context includes a file from the innermost context. -/
theorem included_of_reply {call : Call} {child : FileContext}
    (h : session.reply call = .ok (some child)) :
    ∃ target fragment included,
      (session.source.resolveTarget target fragment).result = .ok included ∧
        included.source.context = child := by
  cases call with
  | resolve tree fragment enters =>
    obtain ⟨included, hincluded, hchild⟩ := exists_of_map_eq_ok h
    obtain rfl := Option.some.inj hchild
    rw [Source.resolve, Reading.result_bind, Reading.result_monadLift] at hincluded
    obtain ⟨target, -, hresolved⟩ := exists_of_bind_eq_ok hincluded
    exact ⟨target, fragment, included, hresolved, rfl⟩
  | resolveTarget target fragment enters =>
    obtain ⟨included, hresolved, hchild⟩ := exists_of_map_eq_ok h
    obtain rfl := Option.some.inj hchild
    exact ⟨target, fragment, included, hresolved, rfl⟩
  | readText tree =>
    obtain ⟨text, -, h⟩ := exists_of_map_eq_ok h
    cases h
  | leave => cases h
  | change files => cases h

/-- What a call gives back is coherent on top of the stack. -/
theorem coherent_of_reply (hroot : root.file.isSome → root.chain ≠ [])
    (h : session.Coheres root) {call : Call} {child : FileContext}
    (hreply : session.reply call = .ok (some child)) :
    Coherent root session.seen child session.stack := by
  obtain ⟨target, fragment, included, hresolved, rfl⟩ := included_of_reply hreply
  have hcurrent := h session.current session.outer (List.suffix_refl _)
  exact hcurrent.included hroot List.mem_cons_self hresolved

theorem Coheres.enter (h : session.Coheres root) {child : FileContext}
    (hchild : Coherent root session.seen child session.stack) :
    (session.enter child).Coheres root := by
  intro context outer hsuffix
  obtain hwhole | hsuffix := List.suffix_cons_iff.1 hsuffix
  · obtain ⟨rfl, rfl⟩ := List.cons.inj hwhole
    exact hchild
  · exact h context outer hsuffix

theorem Coheres.leave (h : session.Coheres root) : session.leave.Coheres root := by
  obtain ⟨files, past, current, outer⟩ := session
  cases outer with
  | nil => exact h
  | cons parent outer =>
    exact fun context rest hsuffix => h context rest (hsuffix.trans (List.suffix_cons _ _))

/-- One step keeps a session coherent. -/
theorem Coheres.step (hroot : root.file.isSome → root.chain ≠ []) (h : session.Coheres root)
    (call : Call) : (session.step call).Coheres root := by
  -- all calls but leaving and changes of the files do what their reply says
  have hreplied : ∀ call, (session.follow call).Coheres root := by
    intro call
    unfold follow
    split
    · next child hreply =>
      split
      · exact h.enter (coherent_of_reply hroot h hreply)
      · exact h
    · exact h
  cases call with
  | resolve tree fragment enters => exact hreplied _
  | resolveTarget target fragment enters => exact hreplied _
  | readText tree => exact hreplied _
  | leave => exact h.leave
  | change files =>
    intro context outer hsuffix
    exact (h context outer hsuffix).mono (List.subset_cons_self _ _)

/-- So does a whole session. -/
theorem Coheres.run (hroot : root.file.isSome → root.chain ≠ []) (h : session.Coheres root)
    (calls : List Call) : (session.run calls).Coheres root := by
  induction calls generalizing session with
  | nil => exact h
  | cons call calls ih => exact ih (h.step hroot call)

/-- A call that fails changes nothing. -/
theorem step_of_error {call : Call} {error : Error} (h : session.reply call = .error error) :
    session.step call = session := by
  have hfollow : session.follow call = session := by
    rw [follow, h]
  cases call with
  | resolve tree fragment enters => exact hfollow
  | resolveTarget target fragment enters => exact hfollow
  | readText tree => exact hfollow
  | leave => cases h
  | change files => cases h

/-- Nothing is included from a context without a file. -/
theorem reply_of_no_file (h : session.current.file = none) (call : Call) (child : FileContext) :
    session.reply call ≠ .ok (some child) := by
  intro hreply
  obtain ⟨target, fragment, included, hresolved, -⟩ := included_of_reply hreply
  obtain ⟨path, text, hpath, -⟩ := Source.resolveTarget_eq_ok_iff.1 hresolved
  have hfile : session.current.file.isSome := FileContext.isSome_of_resolvePath hpath
  rw [h] at hfile
  cases hfile

/-- A session that starts from a text in memory stays with the context of that text. -/
theorem stack_step_of_no_file (h : session.current.file = none) (houter : session.outer = [])
    (call : Call) : (session.step call).stack = session.stack := by
  have hfollow : session.follow call = session := by
    unfold follow
    split
    · next child hreply => exact absurd hreply (reply_of_no_file h call child)
    · rfl
  cases call with
  | resolve tree fragment enters => exact congrArg stack hfollow
  | resolveTarget target fragment enters => exact congrArg stack hfollow
  | readText tree => exact congrArg stack hfollow
  | leave =>
    change session.leave.stack = _
    rw [leave, houter]
  | change files => rfl

theorem stack_run_of_no_file (h : session.current.file = none) (houter : session.outer = [])
    (calls : List Call) : (session.run calls).stack = session.stack := by
  induction calls generalizing session with
  | nil => rfl
  | cons call calls ih =>
    obtain ⟨hcurrent, hrest⟩ := List.cons.inj (stack_step_of_no_file h houter call)
    refine (ih ?_ ?_).trans (stack_step_of_no_file h houter call)
    · rw [hcurrent, h]
    · rw [hrest, houter]

/-- What is true of a session after any calls. Each context on the stack, and each context that a
call gives back, has distinct identities on its chain, as many of them below the root as there are
contexts around it and no more than the limit, the options of the root, and the path of the file
that was read for it; its chain is longer than that around it by what identified the file then. A
call that fails changes nothing, and a text in memory includes nothing. -/
theorem coheres_run (files : FileSystem) (path? : Option Path) (options : Options)
    (calls : List Call) {session : Session}
    (hsession : (start files path? options).run calls = session) :
    session.Coheres (rootOf files path? options) ∧
    (∀ call child, session.reply call = .ok (some child) →
      Coherent (rootOf files path? options) session.seen child session.stack) ∧
    (∀ call error, session.reply call = .error error → session.step call = session) ∧
    (path? = none → session.stack = [.detached options] ∧
      ∀ call child, session.reply call ≠ .ok (some child)) := by
  have hroot := chain_ne_nil_rootOf files path? options
  have hcoheres : session.Coheres (rootOf files path? options) := by
    rw [← hsession]
    exact (coheres_start files path? options).run hroot calls
  refine ⟨hcoheres, fun _ _ => coherent_of_reply hroot hcoheres, fun _ _ => step_of_error, ?_⟩
  rintro rfl
  have hstack : session.stack = [.detached options] := by
    rw [← hsession]
    exact stack_run_of_no_file rfl rfl calls
  refine ⟨hstack, reply_of_no_file ?_⟩
  rw [(List.cons.inj hstack).1]
  rfl

/-- Two files, the first of which is a root document. -/
def twoFiles : FileSystem :=
  ⟨[(["a.raml"], .file (some "")), (["b.raml"], .file (some ""))]⟩

/-- The second file is included and entered, then it is removed, and an include of it from its own
context fails. -/
theorem coheres_twoFiles :
    let session := (start twoFiles (some ⟨"/a.raml"⟩) {}).run
      [.resolveTarget "./b.raml" none true, .change (twoFiles.erase ["b.raml"])]
    session.current.chain = [["b.raml"], ["a.raml"]] ∧
      session.reply (.resolveTarget "b.raml" none true) =
        .error (.circularInclude ⟨"/b.raml"⟩) ∧
      session.Coheres (rootOf twoFiles (some ⟨"/a.raml"⟩) {}) := by
  intro session
  refine ⟨?_, ?_, (coheres_run twoFiles _ _ _ rfl).1⟩
  · rfl
  · rfl

end Session

end RamlDoc
