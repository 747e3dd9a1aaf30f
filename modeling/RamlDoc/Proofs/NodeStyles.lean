import RamlDoc.Yaml.Reader

/-!
# The style of decimals

A decimal here is a text of two numbers with a comma between them, as the text pass quotes it. Two
lists of tokens are the same up to the style of decimals if they are equal once the decimals in them
are taken as quoted. The reader of nodes is walked once for two such lists, which may also part at a
scalar: up to there the nodes are the same up to the style of decimals, and nodes that hold the
scalars where the lists part are apart (`readStream_walks`).
-/

namespace RamlDoc.Yaml

/-- Whether a text is two numbers with a comma between them. -/
def isDecimal (text : List Char) : Bool :=
  match text.dropWhile Char.isDigit with
  | ',' :: rest => !(text.takeWhile Char.isDigit).isEmpty && !rest.isEmpty && rest.all Char.isDigit
  | _ => false

theorem isDecimal_iff {text : List Char} : isDecimal text = true ↔ ∃ whole part,
    text = whole ++ ',' :: part ∧ whole ≠ [] ∧ part ≠ [] ∧ (∀ x ∈ whole, x.isDigit = true) ∧
      ∀ x ∈ part, x.isDigit = true := by
  constructor
  · intro h
    have hsplit := List.takeWhile_append_dropWhile (p := Char.isDigit) (l := text)
    unfold isDecimal at h
    split at h
    next part heq =>
      rw [heq] at hsplit
      simp only [Bool.and_eq_true, Bool.not_eq_true', List.isEmpty_eq_false_iff] at h
      exact ⟨_, part, hsplit.symm, h.1.1, h.1.2, List.all_eq_true.1 List.all_takeWhile,
        List.all_eq_true.1 h.2⟩
    next => cases h
  · rintro ⟨whole, part, rfl, hwhole, hpart, hdigits, hdigits'⟩
    unfold isDecimal
    rw [List.dropWhile_append_of_pos hdigits, List.dropWhile_cons_of_neg (by decide),
      List.takeWhile_append_of_pos hdigits, List.takeWhile_cons_of_neg (by decide)]
    simpa [hwhole, hpart] using hdigits'

/-- A decimal has a comma, which no number of YAML has. -/
theorem comma_mem_of_isDecimal {text : List Char} (h : isDecimal text = true) : ',' ∈ text := by
  obtain ⟨whole, part, rfl, -⟩ := isDecimal_iff.1 h
  simp

/-- A token, with a decimal taken as quoted. -/
def Token.unstyled : Token → Token
  | .scalar text plain => .scalar text (plain && !isDecimal text)
  | token => token

namespace Node

mutual

/-- A node, with the decimals in it taken as quoted. -/
def unstyled : Node → Node
  | .alias number => .alias number
  | .scalar marks text plain => .scalar marks text (plain && !isDecimal text)
  | .sequence marks items => .sequence marks (unstyledItems items)
  | .mapping marks entries => .mapping marks (unstyledEntries entries)

/-- The nodes of a list, with the decimals in them taken as quoted. -/
def unstyledItems : List Node → List Node
  | [] => []
  | item :: items => unstyled item :: unstyledItems items

/-- The nodes of a list of entries, with the decimals in them taken as quoted. -/
def unstyledEntries : List (Node × Node) → List (Node × Node)
  | [] => []
  | (key, value) :: entries => (unstyled key, unstyled value) :: unstyledEntries entries

end

/-- Two nodes are the same up to the style of decimals. -/
def NodesAlike (node other : Node) : Prop := node.unstyled = other.unstyled

/-- Two texts are different, and one has a comma. -/
def TextsApart (text other : List Char) : Prop := text ≠ other ∧ (',' ∈ text ∨ ',' ∈ other)

/-- Two nodes hold, at the same place, scalars whose texts are apart. -/
inductive Apart : Node → Node → Prop
  | scalar {marks : NodeMarks} {text other : List Char} {plain plain' : Bool}
    (h : TextsApart text other) : Apart (.scalar marks text plain) (.scalar marks other plain')
  | item {marks : NodeMarks} {before before' after after' : List Node} {node other : Node}
    (hlength : before.length = before'.length) (h : Apart node other) :
    Apart (.sequence marks (before ++ node :: after)) (.sequence marks (before' ++ other :: after'))
  | key {marks : NodeMarks} {before before' after after' : List (Node × Node)}
    {node other value value' : Node} (hlength : before.length = before'.length)
    (h : Apart node other) :
    Apart (.mapping marks (before ++ (node, value) :: after))
      (.mapping marks (before' ++ (other, value') :: after'))
  | value {marks : NodeMarks} {before before' after after' : List (Node × Node)}
    {key key' node other : Node} (hlength : before.length = before'.length)
    (h : Apart node other) :
    Apart (.mapping marks (before ++ (key, node) :: after))
      (.mapping marks (before' ++ (key', other) :: after'))

end Node

/-- Two lists of tokens are the same up to the style of decimals, or, if `cut` holds, up to a place
before the end of the text where they go on with scalars whose texts are apart. -/
inductive TokensAlike (cut : Prop) : List Token → List Token → Prop
  | nil (hcut : ¬cut) : TokensAlike cut [] []
  | cons {token other : Token} {tokens others : List Token} (h : token.unstyled = other.unstyled)
    (hend : cut → token ≠ .streamEnd) (htokens : TokensAlike cut tokens others) :
    TokensAlike cut (token :: tokens) (other :: others)
  | cut {text other : List Char} {plain plain' : Bool} {tokens others : List Token} (hcut : cut)
    (h : Node.TextsApart text other) :
    TokensAlike cut (.scalar text plain :: tokens) (.scalar other plain' :: others)

namespace Node.Parsing

variable {α β : Type} {cut : Prop}

/-- Two sources of tokens are the same up to the style of decimals, or up to a cut. -/
structure SourcesAlike (cut : Prop) (source other : Source) : Prop where
  tokens : TokensAlike cut source.tokens other.tokens
  anchors : source.anchors = other.anchors
  handles : source.handles = other.handles

/-- How two results of reading go together: both give what is the same, with sources that are, or
what is apart behind a cut, or both fail; behind a cut only one may fail. -/
def ResultsAlike (cut : Prop) (Same Apart : α → α → Prop) :
    Except ReadError (α × Source) → Except ReadError (α × Source) → Prop
  | .ok (a, source), .ok (b, other) => (Same a b ∧ SourcesAlike cut source other) ∨ (cut ∧ Apart a b)
  | .error _, .error _ => True
  | .ok _, .error _ | .error _, .ok _ => cut

/-- Two readers go together on all sources that do. -/
def Walks (cut : Prop) (Same Apart : α → α → Prop) (m m' : Parsing α) : Prop :=
  ∀ source other, SourcesAlike cut source other → ResultsAlike cut Same Apart (m source) (m' other)

theorem Walks.ret {Same Apart : α → α → Prop} {a b : α} (h : Same a b) :
    Walks cut Same Apart (pure a) (pure b) := fun _ _ hsources => .inl ⟨h, hsources⟩

theorem Walks.fail {Same Apart : α → α → Prop} (error error' : ReadError) :
    Walks cut Same Apart (throw error : Parsing α) (throw error') := fun _ _ _ => trivial

/-- What two readers give is apart, wherever they give anything. -/
def Parted (Apart : α → α → Prop) (m m' : Parsing α) : Prop :=
  ∀ source other a b source' other', m source = .ok (a, source') → m' other = .ok (b, other') →
    Apart a b

/-- What two readers give is apart if it is so however they begin. -/
theorem Parted.bind {Apart : β → β → Prop} {m m' : Parsing α} {k k' : α → Parsing β}
    (h : ∀ a b, Parted Apart (k a) (k' b)) : Parted Apart (m >>= k) (m' >>= k') := by
  intro source other c d source' other' hc hd
  change (m source >>= fun p => k p.1 p.2) = _ at hc
  change (m' other >>= fun p => k' p.1 p.2) = _ at hd
  cases hm : m source with
  | error => rw [hm] at hc; cases hc
  | ok p =>
    cases hm' : m' other with
    | error => rw [hm'] at hd; cases hd
    | ok p' =>
      rw [hm] at hc
      rw [hm'] at hd
      exact h p.1 p'.1 p.2 p'.2 c d source' other' hc hd

theorem Parted.map {Apart : β → β → Prop} {m m' : Parsing α} {f g : α → β}
    (h : ∀ a b, Apart (f a) (g b)) :
    Parted Apart (m >>= fun a => pure (f a)) (m' >>= fun a => pure (g a)) := by
  refine .bind fun a b source other c d source' other' hc hd => ?_
  obtain ⟨rfl, rfl⟩ := Prod.mk.inj (Except.ok.inj hc)
  obtain ⟨rfl, rfl⟩ := Prod.mk.inj (Except.ok.inj hd)
  exact h a b

/-- Two continuations go together behind readers that do. -/
structure Follow (cut : Prop) (Same Apart : α → α → Prop) (Same' Apart' : β → β → Prop)
    (k k' : α → Parsing β) : Prop where
  same : ∀ a b, Same a b → Walks cut Same' Apart' (k a) (k' b)
  apart : ∀ a b, Apart a b → Parted Apart' (k a) (k' b)

/-- Readers walk together if their beginnings do and what follows does from there. -/
theorem Walks.bind {Same Apart : α → α → Prop} {Same' Apart' : β → β → Prop} {m m' : Parsing α}
    {k k' : α → Parsing β} (h : Walks cut Same Apart m m')
    (hk : Follow cut Same Apart Same' Apart' k k') :
    Walks cut Same' Apart' (m >>= k) (m' >>= k') := by
  intro source other hsources
  have hresults := h source other hsources
  change ResultsAlike cut Same' Apart' (m source >>= fun p => k p.1 p.2)
    (m' other >>= fun p => k' p.1 p.2)
  cases hm : m source with
  | error e =>
    cases hm' : m' other with
    | error e' => exact trivial
    | ok p =>
      rw [hm, hm'] at hresults
      have hcut : cut := hresults
      change ResultsAlike cut Same' Apart' (.error e) (k' p.1 p.2)
      cases k' p.1 p.2 with
      | error => exact trivial
      | ok => exact hcut
  | ok p =>
    cases hm' : m' other with
    | error e' =>
      rw [hm, hm'] at hresults
      have hcut : cut := hresults
      change ResultsAlike cut Same' Apart' (k p.1 p.2) (.error e')
      cases k p.1 p.2 with
      | error => exact trivial
      | ok => exact hcut
    | ok p' =>
      rw [hm, hm'] at hresults
      rcases hresults with ⟨hab, hrest⟩ | ⟨hcut, hab⟩
      · exact hk.same p.1 p'.1 hab p.2 p'.2 hrest
      · change ResultsAlike cut Same' Apart' (k p.1 p.2) (k' p'.1 p'.2)
        cases hp : k p.1 p.2 with
        | error =>
          cases k' p'.1 p'.2 with
          | error => exact trivial
          | ok => exact hcut
        | ok q =>
          cases hp' : k' p'.1 p'.2 with
          | error => exact hcut
          | ok q' => exact .inr ⟨hcut, hk.apart _ _ hab _ _ _ _ _ _ hp hp'⟩

theorem Walks.map {Same Apart : α → α → Prop} {Same' Apart' : β → β → Prop} {m m' : Parsing α}
    {f g : α → β} (h : Walks cut Same Apart m m') (hsame : ∀ a b, Same a b → Same' (f a) (g b))
    (hapart : ∀ a b, Apart a b → Apart' (f a) (g b)) :
    Walks cut Same' Apart' (m >>= fun a => pure (f a)) (m' >>= fun a => pure (g a)) := by
  refine h.bind ⟨fun a b hab => .ret (hsame a b hab), ?_⟩
  intro a b hab source other c d source' other' hc hd
  obtain ⟨rfl, rfl⟩ := Prod.mk.inj (Except.ok.inj hc)
  obtain ⟨rfl, rfl⟩ := Prod.mk.inj (Except.ok.inj hd)
  exact hapart a b hab

/-- A reader that fails where the lists are cut short walks with any other. -/
theorem Walks.of_cut_left (hcut : cut) {Same Apart : α → α → Prop} (error : ReadError)
    (m : Parsing α) : Walks cut Same Apart (throw error) m := by
  intro source other _
  change ResultsAlike cut Same Apart (.error error) (m other)
  cases m other with
  | error => exact trivial
  | ok => exact hcut

theorem Walks.of_cut_right (hcut : cut) {Same Apart : α → α → Prop} (error : ReadError)
    (m : Parsing α) : Walks cut Same Apart m (throw error) := by
  intro source other _
  change ResultsAlike cut Same Apart (m source) (.error error)
  cases m source with
  | error => exact trivial
  | ok => exact hcut

/-- The source without its next token. -/
def behind (source : Source) : Source := { source with tokens := source.tokens.tail }

/-- Whether a token is a scalar. -/
def isScalar : Token → Bool
  | .scalar .. => true
  | _ => false

/-- Two readers go together where a token is next; only at scalars the tokens may part. -/
def WalksAt (cut : Prop) (token : Token) (Same Apart : α → α → Prop) (m m' : Parsing α) : Prop :=
  ∀ source other, SourcesAlike cut source other →
    (isScalar token = false → SourcesAlike cut (behind source) (behind other)) →
      ResultsAlike cut Same Apart (m source) (m' other)

theorem Walks.at {Same Apart : α → α → Prop} {m m' : Parsing α} (h : Walks cut Same Apart m m')
    {token : Token} : WalksAt cut token Same Apart m m' :=
  fun source other hsources _ => h source other hsources

theorem Walks.advance {Same Apart : α → α → Prop} {m m' : Parsing α}
    (h : Walks cut Same Apart m m') {token : Token} (htoken : isScalar token = false) :
    WalksAt cut token Same Apart (advance >>= fun _ => m) (advance >>= fun _ => m') :=
  fun _ _ _ hbehind => h _ _ (hbehind htoken)

theorem SourcesAlike.peek {source other : Source} (h : SourcesAlike cut source other) :
    (∃ token, isScalar token = false ∧ source.tokens.headD .streamEnd = token ∧
      other.tokens.headD .streamEnd = token ∧ SourcesAlike cut (behind source) (behind other)) ∨
    ∃ text text' plain plain', source.tokens.headD .streamEnd = .scalar text plain ∧
      other.tokens.headD .streamEnd = .scalar text' plain' ∧
      ((NodesAlike (.scalar ⟨none, none⟩ text plain) (.scalar ⟨none, none⟩ text' plain') ∧
          SourcesAlike cut (behind source) (behind other)) ∨ (cut ∧ TextsApart text text')) := by
  obtain ⟨tokens, anchors, handles⟩ := source
  obtain ⟨others, anchors', handles'⟩ := other
  obtain ⟨htokens, hanchors, hhandles⟩ := h
  cases htokens with
  | nil hcut => exact .inl ⟨.streamEnd, rfl, rfl, rfl, .nil hcut, hanchors, hhandles⟩
  | @cons token other tokens others htoken hend htokens =>
    have hbehind : SourcesAlike cut (behind ⟨token :: tokens, anchors, handles⟩)
        (behind ⟨other :: others, anchors', handles'⟩) := ⟨htokens, hanchors, hhandles⟩
    cases token with
    | scalar text plain =>
      cases other with
      | scalar text' plain' =>
        refine .inr ⟨text, text', plain, plain', rfl, rfl, .inl ⟨?_, hbehind⟩⟩
        simpa [NodesAlike, unstyled, Token.unstyled] using htoken
      | _ => cases htoken
    | _ =>
      cases other with
      | scalar => cases htoken
      | _ => exact .inl ⟨_, rfl, rfl, htoken.symm, hbehind⟩
  | cut hcut h => exact .inr ⟨_, _, _, _, rfl, rfl, .inr ⟨hcut, h⟩⟩

/-- A look at the next token; what scalar that is must not matter. -/
theorem Walks.peek {Same Apart : α → α → Prop} {k k' : Token → Parsing α}
    (h : ∀ token, WalksAt cut token Same Apart (k token) (k' token))
    (hscalar : ∀ text plain, k (.scalar text plain) = k (.scalar [] true))
    (hscalar' : ∀ text plain, k' (.scalar text plain) = k' (.scalar [] true)) :
    Walks cut Same Apart (peek >>= k) (peek >>= k') := by
  intro source other hsources
  change ResultsAlike cut Same Apart (k (source.tokens.headD .streamEnd) source)
    (k' (other.tokens.headD .streamEnd) other)
  rcases hsources.peek with ⟨token, htoken, heq, heq', hbehind⟩ |
    ⟨text, text', plain, plain', heq, heq', -⟩
  · rw [heq, heq']
    exact h token source other hsources fun _ => hbehind
  · rw [heq, heq', hscalar, hscalar']
    exact h (.scalar [] true) source other hsources nofun

/-- A look at the next token where a scalar becomes a node. -/
theorem Walks.peek_node {marks : NodeMarks} {k k' : Token → Parsing Node}
    (h : ∀ token, isScalar token = false → WalksAt cut token NodesAlike Apart (k token) (k' token))
    (hscalar : ∀ text plain, k (.scalar text plain) =
      (Parsing.advance >>= fun _ => pure (.scalar marks text plain)))
    (hscalar' : ∀ text plain, k' (.scalar text plain) =
      (Parsing.advance >>= fun _ => pure (.scalar marks text plain))) :
    Walks cut NodesAlike Apart (Parsing.peek >>= k) (Parsing.peek >>= k') := by
  intro source other hsources
  change ResultsAlike cut NodesAlike Apart (k (source.tokens.headD .streamEnd) source)
    (k' (other.tokens.headD .streamEnd) other)
  rcases hsources.peek with ⟨token, htoken, heq, heq', hbehind⟩ |
    ⟨text, text', plain, plain', heq, heq', ⟨halike, hbehind⟩ | ⟨hcut, happart⟩⟩
  · rw [heq, heq']
    exact h token htoken source other hsources fun _ => hbehind
  · rw [heq, heq', hscalar, hscalar']
    refine .inl ⟨?_, hbehind⟩
    simpa [NodesAlike, unstyled] using halike
  · rw [heq, heq', hscalar, hscalar']
    exact .inr ⟨hcut, .scalar happart⟩

/-! ## The readers -/

/-- Two lists of nodes are the same up to the style of decimals. -/
def ItemsAlike (items others : List Node) : Prop := unstyledItems items = unstyledItems others

/-- Two lists have, at the same place, nodes that are apart. -/
def ItemsApart (items others : List Node) : Prop :=
  ∀ marks, Apart (.sequence marks items) (.sequence marks others)

/-- Two lists of entries are the same up to the style of decimals. -/
def EntriesAlike (entries others : List (Node × Node)) : Prop :=
  unstyledEntries entries = unstyledEntries others

/-- Two lists of entries have, at the same place, nodes that are apart. -/
def EntriesApart (entries others : List (Node × Node)) : Prop :=
  ∀ marks, Apart (.mapping marks entries) (.mapping marks others)

theorem ItemsApart.head {node other : Node} (h : Apart node other) (items others : List Node) :
    ItemsApart (node :: items) (other :: others) := fun _ =>
  .item (show ([] : List Node).length = ([] : List Node).length from rfl) h

theorem ItemsApart.tail {items others : List Node} (h : ItemsApart items others)
    (node other : Node) : ItemsApart (node :: items) (other :: others) := fun marks =>
  match h marks with
  | @Apart.item _ before before' _ _ _ _ hlength h =>
    .item (show (node :: before).length = (other :: before').length by simp [hlength]) h

theorem EntriesApart.key {node other : Node} (h : Apart node other) (value value' : Node)
    (entries others : List (Node × Node)) :
    EntriesApart ((node, value) :: entries) ((other, value') :: others) := fun _ =>
  .key (show ([] : List (Node × Node)).length = ([] : List (Node × Node)).length from rfl) h

theorem EntriesApart.value {node other : Node} (h : Apart node other) (key key' : Node)
    (entries others : List (Node × Node)) :
    EntriesApart ((key, node) :: entries) ((key', other) :: others) := fun _ =>
  .value (show ([] : List (Node × Node)).length = ([] : List (Node × Node)).length from rfl) h

theorem EntriesApart.tail {entries others : List (Node × Node)} (h : EntriesApart entries others)
    (entry entry' : Node × Node) : EntriesApart (entry :: entries) (entry' :: others) := fun marks =>
  match h marks with
  | @Apart.key _ before before' _ _ _ _ _ _ hlength h =>
    .key (show (entry :: before).length = (entry' :: before').length by simp [hlength]) h
  | @Apart.value _ before before' _ _ _ _ _ _ hlength h =>
    .value (show (entry :: before).length = (entry' :: before').length by simp [hlength]) h

/-- The readers with amounts of fuel go together. -/
structure ReadersWalk (cut : Prop) (fuel fuel' : Nat) : Prop where
  node : ∀ block indentless, Walks cut NodesAlike Apart (readNode block indentless fuel)
    (readNode block indentless fuel')
  blockItems : Walks cut ItemsAlike ItemsApart (readBlockItems fuel) (readBlockItems fuel')
  indentlessItems : Walks cut ItemsAlike ItemsApart (readIndentlessItems fuel)
    (readIndentlessItems fuel')
  blockEntries : Walks cut EntriesAlike EntriesApart (readBlockEntries fuel)
    (readBlockEntries fuel')
  blockPart : Walks cut NodesAlike Apart (readBlockPart fuel) (readBlockPart fuel')
  blockValue : Walks cut NodesAlike Apart (readBlockValue fuel) (readBlockValue fuel')
  flowItems : ∀ first, Walks cut ItemsAlike ItemsApart (readFlowItems first fuel)
    (readFlowItems first fuel')
  flowItemValue : Walks cut NodesAlike Apart (readFlowItemValue fuel) (readFlowItemValue fuel')
  flowEntries : ∀ first, Walks cut EntriesAlike EntriesApart (readFlowEntries first fuel)
    (readFlowEntries first fuel')
  flowValue : Walks cut NodesAlike Apart (readFlowValue fuel) (readFlowValue fuel')

theorem follow_item {m m' : Parsing (List Node)} (h : Walks cut ItemsAlike ItemsApart m m') :
    Follow cut NodesAlike Apart ItemsAlike ItemsApart
      (fun item => m >>= fun items => pure (item :: items))
      (fun item => m' >>= fun items => pure (item :: items)) where
  same a b hab := by
    refine Walks.map h (fun items others hitems => ?_) fun items others hitems => hitems.tail a b
    rw [ItemsAlike, unstyledItems, unstyledItems, hab, hitems]
  apart a b hab := Parted.map fun items others => .head hab items others

theorem follow_entry {v v' : Parsing Node} {m m' : Parsing (List (Node × Node))}
    (hv : Walks cut NodesAlike Apart v v') (h : Walks cut EntriesAlike EntriesApart m m') :
    Follow cut NodesAlike Apart EntriesAlike EntriesApart
      (fun key => v >>= fun value => m >>= fun entries => pure ((key, value) :: entries))
      (fun key => v' >>= fun value => m' >>= fun entries => pure ((key, value) :: entries)) where
  same key key' hkey := by
    refine hv.bind ⟨fun value value' hvalue => ?_, fun value value' hvalue => ?_⟩
    · refine Walks.map h (fun entries others hentries => ?_) fun entries others hentries =>
        hentries.tail _ _
      rw [EntriesAlike, unstyledEntries, unstyledEntries, hkey, hvalue, hentries]
    · exact Parted.map fun entries others => .value hvalue key key' entries others
  apart key key' hkey :=
    Parted.bind fun value value' => Parted.map fun entries others => .key hkey value value' entries others

theorem follow_pair {v v' : Parsing Node} {m m' : Parsing (List Node)}
    (hv : Walks cut NodesAlike Apart v v') (h : Walks cut ItemsAlike ItemsApart m m') :
    Follow cut NodesAlike Apart ItemsAlike ItemsApart
      (fun key => v >>= fun value => m >>= fun items =>
        pure (.mapping ⟨none, none⟩ [(key, value)] :: items))
      (fun key => v' >>= fun value => m' >>= fun items =>
        pure (.mapping ⟨none, none⟩ [(key, value)] :: items)) where
  same key key' hkey := by
    refine hv.bind ⟨fun value value' hvalue => (follow_item h).same _ _ ?_, fun value value' hvalue =>
      (follow_item h).apart _ _ ?_⟩
    · simp only [NodesAlike, unstyled, unstyledEntries]
      rw [hkey, hvalue]
    · exact EntriesApart.value hvalue key key' [] [] _
  apart key key' hkey :=
    Parted.bind fun value value' => (follow_item h).apart _ _ (EntriesApart.key hkey value value' [] [] _)

/-- Nothing is apart. -/
def Never {α : Type} (_ _ : α) : Prop := False

theorem walks_lookup (name : String) : Walks cut Eq Never (lookup name) (lookup name) := by
  intro source other hsources
  dsimp only [lookup, bind, StateT.bind, get, getThe, MonadStateOf.get, StateT.get, pure,
    Except.pure, Except.bind]
  rw [hsources.anchors]
  cases other.anchors.lookup name with
  | some number => exact .inl ⟨rfl, hsources⟩
  | none => exact trivial

theorem walks_define (name : String) : Walks cut Eq Never (define name) (define name) := by
  intro source other hsources
  refine .inl ⟨congrArg List.length hsources.anchors, hsources.tokens, ?_, hsources.handles⟩
  simp only [hsources.anchors]

theorem walks_expandTag (handle : String) (suffix : TagText) :
    Walks cut Eq Never (expandTag handle suffix) (expandTag handle suffix) := by
  intro source other hsources
  unfold expandTag
  split
  · exact .inl ⟨rfl, hsources⟩
  · dsimp only [bind, StateT.bind, get, getThe, MonadStateOf.get, StateT.get, pure, Except.pure,
      Except.bind]
    rw [hsources.handles]
    cases other.handles.lookup handle with
    | some expansion => exact .inl ⟨rfl, hsources⟩
    | none => exact trivial

/-- The marks of a node are no scalars, so both readers find the same. -/
theorem walks_readMarks : Walks cut Eq Never readMarks readMarks := by
  unfold readMarks
  refine Walks.peek (fun token => ?_) (fun _ _ => rfl) fun _ _ => rfl
  cases token with
  | anchor name =>
    refine Walks.advance (Walks.peek (fun token => ?_) (fun _ _ => rfl) fun _ _ => rfl) rfl
    cases token with
    | tag => exact Walks.advance (Walks.ret rfl) rfl
    | _ => exact (Walks.ret rfl).at
  | tag handle suffix =>
    refine Walks.advance (Walks.peek (fun token => ?_) (fun _ _ => rfl) fun _ _ => rfl) rfl
    cases token with
    | anchor => exact Walks.advance (Walks.ret rfl) rfl
    | _ => exact (Walks.ret rfl).at
  | _ => exact (Walks.ret rfl).at

theorem walks_mapM {γ : Type} {f : α → Parsing γ} (h : ∀ a, Walks cut Eq Never (f a) (f a))
    (a? : Option α) : Walks cut Eq Never (a?.mapM f) (a?.mapM f) := by
  cases a? with
  | none => exact Walks.ret rfl
  | some a => exact Walks.map (h a) (fun _ _ h => congrArg some h) fun _ _ => False.elim

/-- Behind readers that give the same or fail, the continuations go together if they do on every
value. -/
theorem Walks.follow {Same Apart : β → β → Prop} {m m' : Parsing α} {k k' : α → Parsing β}
    (h : Walks cut Eq Never m m') (hk : ∀ a, Walks cut Same Apart (k a) (k' a)) :
    Walks cut Same Apart (m >>= k) (m' >>= k') :=
  h.bind ⟨fun a _ hab => hab ▸ hk a, fun _ _ => False.elim⟩

theorem walks_readMissing (marks : NodeMarks) :
    Walks cut NodesAlike Apart (readMissing marks) (readMissing marks) := by
  unfold readMissing
  split
  · exact Walks.fail _ _
  · exact Walks.ret rfl

theorem walksAt_separator {Same Apart : α → α → Prop} (first : Bool) (token : Token)
    {k k' : PUnit → Parsing α} (h : Walks cut Same Apart (k ⟨⟩) (k' ⟨⟩)) :
    WalksAt cut token Same Apart
      (if (!first) = true then
        if token = .flowEntry then advance >>= k else throw .unexpectedToken >>= k
      else k ⟨⟩)
      (if (!first) = true then
        if token = .flowEntry then advance >>= k' else throw .unexpectedToken >>= k'
      else k' ⟨⟩) := by
  split
  · split
    next htoken => exact Walks.advance h (htoken ▸ rfl)
    next => exact fun _ _ _ _ => trivial
  · exact h.at

theorem walks_sequence (marks : NodeMarks) {m m' : Parsing (List Node)}
    (h : Walks cut ItemsAlike ItemsApart m m') :
    Walks cut NodesAlike Apart (m >>= fun items => pure (.sequence marks items))
      (m' >>= fun items => pure (.sequence marks items)) := by
  refine Walks.map h (fun items others hitems => ?_) fun items others hitems => hitems marks
  rw [NodesAlike, unstyled, unstyled, hitems]

theorem walks_mapping (marks : NodeMarks) {m m' : Parsing (List (Node × Node))}
    (h : Walks cut EntriesAlike EntriesApart m m') :
    Walks cut NodesAlike Apart (m >>= fun entries => pure (.mapping marks entries))
      (m' >>= fun entries => pure (.mapping marks entries)) := by
  refine Walks.map h (fun entries others hentries => ?_) fun entries others hentries => hentries marks
  rw [NodesAlike, unstyled, unstyled, hentries]

section

variable {fuel fuel' : Nat} (h : ReadersWalk cut fuel fuel')

include h

theorem walks_blockItems :
    Walks cut ItemsAlike ItemsApart (readBlockItems (fuel + 1)) (readBlockItems (fuel' + 1)) := by
  have hitems := follow_item h.blockItems
  rw [readBlockItems, readBlockItems]
  refine Walks.peek (fun token => ?_) (fun _ _ => rfl) fun _ _ => rfl
  cases token with
  | blockEntry =>
    refine Walks.advance (Walks.peek (fun token => ?_) (fun _ _ => rfl) fun _ _ => rfl) rfl
    cases token with
    | blockEntry | blockEnd => exact (hitems.same missing missing rfl).at
    | _ => exact ((h.node true false).bind hitems).at
  | blockEnd => exact Walks.advance (Walks.ret rfl) rfl
  | _ => exact (Walks.fail _ _).at

theorem walks_indentlessItems :
    Walks cut ItemsAlike ItemsApart (readIndentlessItems (fuel + 1))
      (readIndentlessItems (fuel' + 1)) := by
  have hitems := follow_item h.indentlessItems
  rw [readIndentlessItems, readIndentlessItems]
  refine Walks.peek (fun token => ?_) (fun _ _ => rfl) fun _ _ => rfl
  cases token with
  | blockEntry =>
    refine Walks.advance (Walks.peek (fun token => ?_) (fun _ _ => rfl) fun _ _ => rfl) rfl
    cases token with
    | blockEntry | key | value | blockEnd => exact (hitems.same missing missing rfl).at
    | _ => exact ((h.node true false).bind hitems).at
  | _ => exact (Walks.ret rfl).at

theorem walks_blockEntries :
    Walks cut EntriesAlike EntriesApart (readBlockEntries (fuel + 1))
      (readBlockEntries (fuel' + 1)) := by
  rw [readBlockEntries, readBlockEntries]
  refine Walks.peek (fun token => ?_) (fun _ _ => rfl) fun _ _ => rfl
  cases token with
  | key => exact Walks.advance (h.blockPart.bind (follow_entry h.blockValue h.blockEntries)) rfl
  | blockEnd => exact Walks.advance (Walks.ret rfl) rfl
  | _ => exact (Walks.fail _ _).at

theorem walks_blockPart :
    Walks cut NodesAlike Apart (readBlockPart (fuel + 1)) (readBlockPart (fuel' + 1)) := by
  rw [readBlockPart, readBlockPart]
  refine Walks.peek (fun token => ?_) (fun _ _ => rfl) fun _ _ => rfl
  cases token with
  | key | value | blockEnd => exact (Walks.ret rfl).at
  | _ => exact (h.node true true).at

theorem walks_blockValue :
    Walks cut NodesAlike Apart (readBlockValue (fuel + 1)) (readBlockValue (fuel' + 1)) := by
  rw [readBlockValue, readBlockValue]
  refine Walks.peek (fun token => ?_) (fun _ _ => rfl) fun _ _ => rfl
  cases token with
  | value => exact Walks.advance h.blockPart rfl
  | _ => exact (Walks.ret rfl).at

theorem walks_flowItemValue :
    Walks cut NodesAlike Apart (readFlowItemValue (fuel + 1)) (readFlowItemValue (fuel' + 1)) := by
  rw [readFlowItemValue, readFlowItemValue]
  refine Walks.peek (fun token => ?_) (fun _ _ => rfl) fun _ _ => rfl
  cases token with
  | value =>
    refine Walks.advance (Walks.peek (fun token => ?_) (fun _ _ => rfl) fun _ _ => rfl) rfl
    cases token with
    | flowEntry | flowSequenceEnd => exact (Walks.ret rfl).at
    | _ => exact (h.node false false).at
  | _ => exact (Walks.ret rfl).at

theorem walks_flowValue :
    Walks cut NodesAlike Apart (readFlowValue (fuel + 1)) (readFlowValue (fuel' + 1)) := by
  rw [readFlowValue, readFlowValue]
  refine Walks.peek (fun token => ?_) (fun _ _ => rfl) fun _ _ => rfl
  cases token with
  | value =>
    refine Walks.advance (Walks.peek (fun token => ?_) (fun _ _ => rfl) fun _ _ => rfl) rfl
    cases token with
    | flowEntry | flowMappingEnd => exact (Walks.ret rfl).at
    | _ => exact (h.node false false).at
  | _ => exact (Walks.ret rfl).at

theorem walks_flowItems (first : Bool) :
    Walks cut ItemsAlike ItemsApart (readFlowItems first (fuel + 1))
      (readFlowItems first (fuel' + 1)) := by
  have hitems := follow_item (h.flowItems false)
  have hpairs := follow_pair h.flowItemValue (h.flowItems false)
  rw [readFlowItems, readFlowItems]
  refine Walks.peek (fun token => ?_) (fun _ _ => rfl) fun _ _ => rfl
  split
  next => exact Walks.advance (Walks.ret rfl) rfl
  next =>
    refine walksAt_separator first _ ?_
    refine Walks.peek (fun token => ?_) (fun _ _ => rfl) fun _ _ => rfl
    cases token with
    | key =>
      refine Walks.advance (Walks.peek (fun token => ?_) (fun _ _ => rfl) fun _ _ => rfl) rfl
      cases token with
      | value | flowEntry | flowSequenceEnd =>
        exact Walks.advance (hpairs.same missing missing rfl) rfl
      | _ => exact ((h.node false false).bind hpairs).at
    | flowSequenceEnd => exact Walks.advance (Walks.ret rfl) rfl
    | _ => exact ((h.node false false).bind hitems).at

theorem walks_flowEntries (first : Bool) :
    Walks cut EntriesAlike EntriesApart (readFlowEntries first (fuel + 1))
      (readFlowEntries first (fuel' + 1)) := by
  have hentries := follow_entry h.flowValue (h.flowEntries false)
  have hmissing : Walks cut NodesAlike Apart (pure missing) (pure missing) := .ret rfl
  have hkeys := follow_entry hmissing (h.flowEntries false)
  rw [readFlowEntries, readFlowEntries]
  refine Walks.peek (fun token => ?_) (fun _ _ => rfl) fun _ _ => rfl
  split
  next => exact Walks.advance (Walks.ret rfl) rfl
  next =>
    refine walksAt_separator first _ ?_
    refine Walks.peek (fun token => ?_) (fun _ _ => rfl) fun _ _ => rfl
    cases token with
    | key =>
      refine Walks.advance (Walks.peek (fun token => ?_) (fun _ _ => rfl) fun _ _ => rfl) rfl
      cases token with
      | value | flowEntry | flowMappingEnd => exact (hentries.same missing missing rfl).at
      | _ => exact ((h.node false false).bind hentries).at
    | flowMappingEnd => exact Walks.advance (Walks.ret rfl) rfl
    | _ => exact ((h.node false false).bind hkeys).at

/-- One round of reading a node, from rounds with less fuel. -/
theorem walks_node (block indentless : Bool) :
    Walks cut NodesAlike Apart (readNode block indentless (fuel + 1))
      (readNode block indentless (fuel' + 1)) := by
  rw [readNode, readNode]
  refine Walks.peek (fun token => ?_) (fun _ _ => rfl) fun _ _ => rfl
  split
  next name =>
    exact Walks.advance (Walks.map (walks_lookup name) (fun _ _ h => h ▸ rfl) fun _ _ => False.elim) rfl
  next =>
    refine (walks_readMarks.follow fun parts => ?_).at
    refine (walks_mapM (fun part => walks_expandTag part.1 part.2) parts.2).follow fun tag => ?_
    refine (walks_mapM walks_define parts.1).follow fun anchor => ?_
    refine Walks.peek_node (fun token htoken => ?_) (fun _ _ => rfl) fun _ _ => rfl
    cases token with
    | scalar => cases htoken
    | flowSequenceStart => exact Walks.advance (walks_sequence _ (h.flowItems true)) rfl
    | flowMappingStart => exact Walks.advance (walks_mapping _ (h.flowEntries true)) rfl
    | blockSequenceStart =>
      cases block with
      | true => exact Walks.advance (walks_sequence _ h.blockItems) rfl
      | false => exact (walks_readMissing _).at
    | blockMappingStart =>
      cases block with
      | true => exact Walks.advance (walks_mapping _ h.blockEntries) rfl
      | false => exact (walks_readMissing _).at
    | blockEntry =>
      cases indentless with
      | true => exact (walks_sequence _ h.indentlessItems).at
      | false => exact (walks_readMissing _).at
    | _ => exact (walks_readMissing _).at

end

/-- All readers of nodes walk together, by induction on the fuel. -/
theorem readersWalk {fuel fuel' : Nat} (hfuel : ¬cut → fuel = fuel') :
    ReadersWalk cut fuel fuel' := by
  induction fuel generalizing fuel' with
  | zero =>
    by_cases hcut : cut
    · constructor <;> intros <;> exact Walks.of_cut_left hcut _ _
    · obtain rfl := hfuel hcut
      constructor <;> intros <;> exact Walks.fail _ _
  | succ fuel ih =>
    cases fuel' with
    | zero =>
      have hcut : cut := Classical.byContradiction fun hcut => nomatch hfuel hcut
      constructor <;> intros <;> exact Walks.of_cut_right hcut _ _
    | succ fuel' =>
      have h : ReadersWalk cut fuel fuel' := ih fun hcut => Nat.succ.inj (hfuel hcut)
      exact {
        node := walks_node h
        blockItems := walks_blockItems h
        indentlessItems := walks_indentlessItems h
        blockEntries := walks_blockEntries h
        blockPart := walks_blockPart h
        blockValue := walks_blockValue h
        flowItems := walks_flowItems h
        flowItemValue := walks_flowItemValue h
        flowEntries := walks_flowEntries h
        flowValue := walks_flowValue h }

/-! ## Documents -/

theorem walks_readDirectives {fuel fuel' : Nat} (hfuel : ¬cut → fuel = fuel') (version : Bool)
    (handles : List (String × TagText)) :
    Walks cut Eq Never (readDirectives version handles fuel) (readDirectives version handles fuel') := by
  induction fuel generalizing fuel' version handles with
  | zero =>
    by_cases hcut : cut
    · exact Walks.of_cut_left hcut _ _
    · obtain rfl := hfuel hcut
      exact Walks.fail _ _
  | succ fuel ih =>
    cases fuel' with
    | zero =>
      have hcut : cut := Classical.byContradiction fun hcut => nomatch hfuel hcut
      exact Walks.of_cut_right hcut _ _
    | succ fuel' =>
      have hfuel : ¬cut → fuel = fuel' := fun hcut => Nat.succ.inj (hfuel hcut)
      rw [readDirectives, readDirectives]
      refine Walks.peek (fun token => ?_) (fun _ _ => rfl) fun _ _ => rfl
      cases token with
      | versionDirective major minor =>
        refine Walks.advance ?_ rfl
        cases version with
        | true => exact fun _ _ _ => trivial
        | false =>
          refine (?_ : Walks cut Eq Never
            (if major ≠ 1 ∨ (minor ≠ 1 ∧ minor ≠ 2) then
              throw .unsupportedVersion >>= fun (_ : Unit) => readDirectives true handles fuel
            else readDirectives true handles fuel)
            (if major ≠ 1 ∨ (minor ≠ 1 ∧ minor ≠ 2) then
              throw .unsupportedVersion >>= fun (_ : Unit) => readDirectives true handles fuel'
            else readDirectives true handles fuel'))
          split
          · exact fun _ _ _ => trivial
          · exact ih hfuel true handles
      | tagDirective handle expansion =>
        refine Walks.advance ?_ rfl
        split
        · exact fun _ _ _ => trivial
        · exact ih hfuel version _
      | _ =>
        intro source other hsources _
        exact .inl ⟨rfl, hsources.tokens, hsources.anchors, rfl⟩

theorem tokensAlike_skipDocumentEnds {tokens others : List Token}
    (h : TokensAlike cut tokens others) :
    TokensAlike cut (tokens.dropWhile (· = .documentEnd)) (others.dropWhile (· = .documentEnd)) := by
  induction h with
  | nil hcut => exact .nil hcut
  | @cons token other tokens others htoken hend htokens ih =>
    by_cases h : token = .documentEnd
    · have hother : other = .documentEnd := by
        subst h
        cases other with
        | documentEnd => rfl
        | _ => cases htoken
      rw [List.dropWhile_cons_of_pos (by simp [h]), List.dropWhile_cons_of_pos (by simp [hother])]
      exact ih
    · have hother : other ≠ .documentEnd := by
        rintro rfl
        cases token with
        | documentEnd => exact h rfl
        | _ => cases htoken
      rw [List.dropWhile_cons_of_neg (by simp [h]), List.dropWhile_cons_of_neg (by simp [hother])]
      exact .cons htoken hend htokens
  | cut hcut h => exact .cut hcut h

/-- A document is read together up to its end. -/
theorem walks_readContent {fuel fuel' : Nat} (hfuel : ¬cut → fuel = fuel') :
    Walks cut NodesAlike Apart (readContent fuel) (readContent fuel') := by
  have hnode := (readersWalk hfuel).node true false
  unfold readContent
  refine Walks.peek (fun token => ?_) (fun _ _ => rfl) fun _ _ => rfl
  cases token with
  | versionDirective | tagDirective | documentStart | documentEnd | streamEnd =>
    exact (Walks.ret rfl).at
  | _ => exact hnode.at

/-- The end of a stream is not reached before a cut. -/
theorem walks_end {node other : Node} (h : NodesAlike node other) :
    Walks cut (fun node other => NodesAlike node other ∧ ¬cut) Apart
      (peek >>= fun token => if token ≠ .streamEnd then throw .severalDocuments >>= fun (_ : Unit) =>
        pure node else pure node)
      (peek >>= fun token => if token ≠ .streamEnd then throw .severalDocuments >>= fun (_ : Unit) =>
        pure other else pure other) := by
  intro source source' hsources
  obtain ⟨tokens, anchors, handles⟩ := source
  obtain ⟨others, anchors', handles'⟩ := source'
  have htokens : TokensAlike cut tokens others := hsources.tokens
  cases htokens with
  | nil hcut => exact .inl ⟨⟨h, hcut⟩, hsources⟩
  | @cons token other tokens others htoken hend =>
    cases token with
    | streamEnd =>
      cases other with
      | streamEnd => exact .inl ⟨⟨h, fun hcut => hend hcut rfl⟩, hsources⟩
      | _ => cases htoken
    | _ =>
      cases other with
      | streamEnd => cases htoken
      | _ => exact trivial
  | cut => exact trivial

theorem follow_end : Follow cut NodesAlike Apart (fun node other => NodesAlike node other ∧ ¬cut) Apart
    (fun node => skipDocumentEnds >>= fun _ => peek >>= fun token =>
      if token ≠ .streamEnd then throw .severalDocuments >>= fun (_ : Unit) => pure node
      else pure node)
    (fun node => skipDocumentEnds >>= fun _ => peek >>= fun token =>
      if token ≠ .streamEnd then throw .severalDocuments >>= fun (_ : Unit) => pure node
      else pure node) where
  same node other h := by
    intro source source' hsources
    exact walks_end h _ _ ⟨tokensAlike_skipDocumentEnds hsources.tokens, hsources.anchors, hsources.handles⟩
  apart node other h := by
    refine Parted.bind fun _ _ => Parted.bind fun token token' => ?_
    intro source other' a b source' other'' ha hb
    split at ha
    · cases ha
    · split at hb
      · cases hb
      · obtain ⟨rfl, rfl⟩ := Prod.mk.inj (Except.ok.inj ha)
        obtain ⟨rfl, rfl⟩ := Prod.mk.inj (Except.ok.inj hb)
        exact h

theorem walks_readStream {fuel fuel' : Nat} (hfuel : ¬cut → fuel = fuel') :
    Walks cut (fun node other => NodesAlike node other ∧ ¬cut) Apart (readStream fuel)
      (readStream fuel') := by
  have hdocument : Walks cut (fun node other => NodesAlike node other ∧ ¬cut) Apart
      (readDirectives false [] fuel >>= fun _ => peek >>= fun token =>
        if token ≠ .documentStart then throw .unexpectedToken >>= fun (_ : Unit) => advance >>= fun _ =>
          readContent fuel >>= fun node => skipDocumentEnds >>= fun _ => peek >>= fun token =>
            if token ≠ .streamEnd then throw .severalDocuments >>= fun (_ : Unit) => pure node
            else pure node
        else advance >>= fun _ =>
          readContent fuel >>= fun node => skipDocumentEnds >>= fun _ => peek >>= fun token =>
            if token ≠ .streamEnd then throw .severalDocuments >>= fun (_ : Unit) => pure node
            else pure node)
      (readDirectives false [] fuel' >>= fun _ => peek >>= fun token =>
        if token ≠ .documentStart then throw .unexpectedToken >>= fun (_ : Unit) => advance >>= fun _ =>
          readContent fuel' >>= fun node => skipDocumentEnds >>= fun _ => peek >>= fun token =>
            if token ≠ .streamEnd then throw .severalDocuments >>= fun (_ : Unit) => pure node
            else pure node
        else advance >>= fun _ =>
          readContent fuel' >>= fun node => skipDocumentEnds >>= fun _ => peek >>= fun token =>
            if token ≠ .streamEnd then throw .severalDocuments >>= fun (_ : Unit) => pure node
            else pure node) := by
    refine (walks_readDirectives hfuel false []).follow fun _ => ?_
    refine Walks.peek (fun token => ?_) (fun _ _ => rfl) fun _ _ => rfl
    split
    · exact (Walks.fail _ _).at
    next htoken =>
      have hstart : isScalar token = false := by
        rw [Classical.not_not.1 htoken]
        rfl
      exact Walks.advance ((walks_readContent hfuel).bind follow_end) hstart
  unfold readStream
  refine Walks.peek (fun token => ?_) (fun _ _ => rfl) fun _ _ => rfl
  cases token with
  | streamEnd => exact (follow_end.same missing missing rfl).at
  | versionDirective | tagDirective | documentStart => exact hdocument.at
  | _ => exact (((readersWalk hfuel).node true false).bind follow_end).at

end Parsing

theorem tokensAlike_of_map_eq {tokens others : List Token}
    (h : tokens.map Token.unstyled = others.map Token.unstyled) : TokensAlike False tokens others := by
  induction tokens generalizing others with
  | nil =>
    obtain rfl : others = [] := by simpa using h.symm
    exact .nil id
  | cons token tokens ih =>
    cases others with
    | nil => cases h
    | cons other others =>
      obtain ⟨htoken, htokens⟩ := List.cons.inj h
      exact .cons htoken False.elim (ih htokens)

theorem ofTokens_eq (tokens : List Token) :
    ofTokens tokens = (Parsing.readStream (3 * tokens.length + 8)
      ⟨tokens, [], Parsing.standardHandles⟩).map Prod.fst := by
  change ((Parsing.readStream (3 * tokens.length + 8)
    ⟨tokens, [], Parsing.standardHandles⟩) >>= fun p => pure p.1) = _
  cases Parsing.readStream (3 * tokens.length + 8) ⟨tokens, [], Parsing.standardHandles⟩ <;> rfl

/-- Tokens that are the same up to the style of decimals give nodes that are, or none. -/
theorem ofTokens_alike {tokens others : List Token}
    (h : tokens.map Token.unstyled = others.map Token.unstyled) :
    (∃ node other, ofTokens tokens = .ok node ∧ ofTokens others = .ok other ∧
      NodesAlike node other) ∨
    ∃ error error', ofTokens tokens = .error error ∧ ofTokens others = .error error' := by
  have hlength : tokens.length = others.length := by simpa using congrArg List.length h
  have hfuel : ¬False → 3 * tokens.length + 8 = 3 * others.length + 8 := fun _ => by rw [hlength]
  have hresults := Parsing.walks_readStream hfuel ⟨tokens, [], Parsing.standardHandles⟩
    ⟨others, [], Parsing.standardHandles⟩ ⟨tokensAlike_of_map_eq h, rfl, rfl⟩
  rw [ofTokens_eq, ofTokens_eq]
  revert hresults
  cases Parsing.readStream (3 * tokens.length + 8) ⟨tokens, [], Parsing.standardHandles⟩ with
  | error error =>
    cases Parsing.readStream (3 * others.length + 8) ⟨others, [], Parsing.standardHandles⟩ with
    | error error' => exact fun _ => .inr ⟨error, error', rfl, rfl⟩
    | ok => exact False.elim
  | ok p =>
    cases Parsing.readStream (3 * others.length + 8) ⟨others, [], Parsing.standardHandles⟩ with
    | error => exact False.elim
    | ok p' =>
      rintro (⟨⟨halike, -⟩, -⟩ | ⟨hcut, -⟩)
      · exact .inl ⟨p.1, p'.1, rfl, rfl, halike⟩
      · exact hcut.elim

/-- Tokens that part at a scalar give nodes that are apart, where they give any. -/
theorem ofTokens_apart {tokens others : List Token} {node other : Node}
    (h : TokensAlike True tokens others) (hnode : ofTokens tokens = .ok node)
    (hother : ofTokens others = .ok other) : Apart node other := by
  have hfuel : ¬True → 3 * tokens.length + 8 = 3 * others.length + 8 := fun h => absurd trivial h
  have hresults := Parsing.walks_readStream hfuel ⟨tokens, [], Parsing.standardHandles⟩
    ⟨others, [], Parsing.standardHandles⟩ ⟨h, rfl, rfl⟩
  rw [ofTokens_eq] at hnode hother
  revert hresults
  cases hp : Parsing.readStream (3 * tokens.length + 8) ⟨tokens, [], Parsing.standardHandles⟩ with
  | error error => rw [hp] at hnode; cases hnode
  | ok p =>
    cases hp' : Parsing.readStream (3 * others.length + 8) ⟨others, [], Parsing.standardHandles⟩ with
    | error => rw [hp'] at hother; cases hother
    | ok p' =>
      rw [hp] at hnode
      rw [hp'] at hother
      obtain rfl := Except.ok.inj hnode
      obtain rfl := Except.ok.inj hother
      rintro (⟨⟨-, hcut⟩, -⟩ | ⟨-, happart⟩)
      · exact absurd trivial hcut
      · exact happart

end Node

end RamlDoc.Yaml
