import Mathlib
import RamlDoc.Proofs.Commas
import RamlDoc.Proofs.NodeStyles

/-!
# Trees of nodes up to the style of decimals

The style of decimals does not change the tree of a node (`ofNode_unstyled`), and nodes that are
apart never have the same tree (`ofNode_ne_of_apart`). So two texts with the same tokens, up to the
style of decimals, are read alike (`read_of_sameTokens`), and two texts whose tokens part at a
scalar are not.
-/

namespace RamlDoc.Yaml

namespace Node

theorem unstyledItems_eq_map (items : List Node) : unstyledItems items = items.map unstyled := by
  induction items with
  | nil => rfl
  | cons item items ih => rw [unstyledItems, ih, List.map_cons]

theorem unstyledEntries_eq_map (entries : List (Node × Node)) :
    unstyledEntries entries = entries.map fun entry => (entry.1.unstyled, entry.2.unstyled) := by
  induction entries with
  | nil => rfl
  | cons entry entries ih => rw [unstyledEntries, ih, List.map_cons]

/-- A table of nodes by number, with the decimals in them taken as quoted. -/
def unstyledTable (table : List (Nat × Node)) : List (Nat × Node) :=
  table.map fun entry => (entry.1, entry.2.unstyled)

mutual

theorem anchored_unstyled (node : Node) : anchored node.unstyled = unstyledTable node.anchored := by
  cases node with
  | «alias» => rfl
  | scalar marks => cases h : marks.anchor <;> simp [unstyled, anchored, unstyledTable, h]
  | sequence marks items =>
    have hitems := anchoredItems_unstyled items
    cases h : marks.anchor <;> simp_all [unstyled, anchored, unstyledTable]
  | mapping marks entries =>
    have hentries := anchoredEntries_unstyled entries
    cases h : marks.anchor <;> simp_all [unstyled, anchored, unstyledTable]

theorem anchoredItems_unstyled (items : List Node) :
    anchoredItems (unstyledItems items) = unstyledTable (anchoredItems items) := by
  cases items with
  | nil => rfl
  | cons item items =>
    rw [unstyledItems, anchoredItems, anchoredItems, anchored_unstyled item,
      anchoredItems_unstyled items]
    simp [unstyledTable]

theorem anchoredEntries_unstyled (entries : List (Node × Node)) :
    anchoredEntries (unstyledEntries entries) = unstyledTable (anchoredEntries entries) := by
  cases entries with
  | nil => rfl
  | cons entry entries =>
    rw [unstyledEntries, anchoredEntries, anchoredEntries, anchored_unstyled entry.1,
      anchored_unstyled entry.2, anchoredEntries_unstyled entries]
    simp [unstyledTable]

end

mutual

theorem weight_unstyled (node : Node) : weight node.unstyled = weight node := by
  cases node with
  | «alias» | scalar => rfl
  | sequence marks items => rw [unstyled, weight, weight, weightItems_unstyled items]
  | mapping marks entries => rw [unstyled, weight, weight, weightEntries_unstyled entries]

theorem weightItems_unstyled (items : List Node) :
    weightItems (unstyledItems items) = weightItems items := by
  cases items with
  | nil => rfl
  | cons item items =>
    rw [unstyledItems, weightItems, weightItems, weight_unstyled item, weightItems_unstyled items]

theorem weightEntries_unstyled (entries : List (Node × Node)) :
    weightEntries (unstyledEntries entries) = weightEntries entries := by
  cases entries with
  | nil => rfl
  | cons entry entries =>
    rw [unstyledEntries, weightEntries, weightEntries, weight_unstyled entry.1,
      weight_unstyled entry.2, weightEntries_unstyled entries]

end

end Node

namespace Tree

open Node

theorem lookup_unstyledTable (table : List (Nat × Node)) (anchor : Nat) :
    (unstyledTable table).lookup anchor = (table.lookup anchor).map unstyled := by
  induction table with
  | nil => rfl
  | cons entry table ih =>
    obtain ⟨number, node⟩ := entry
    rw [unstyledTable, List.map_cons, List.lookup_cons, List.lookup_cons]
    cases anchor == number with
    | true => rfl
    | false => exact ih

theorem referent_unstyled (table : List (Nat × Node)) (node : Node) :
    referent (unstyledTable table) node.unstyled =
      (referent table node >>= fun node => pure node.unstyled) := by
  cases node with
  | «alias» anchor =>
    have hlookup : (unstyledTable table).reverse.lookup anchor =
        (table.reverse.lookup anchor).map unstyled := by
      rw [← lookup_unstyledTable, unstyledTable, unstyledTable, List.map_reverse]
    funext budget
    simp only [unstyled, referent, hlookup]
    by_cases hbudget : budget = 0
    · subst hbudget
      rfl
    · cases table.reverse.lookup anchor with
      | none =>
        simp only [hbudget, bind, StateT.bind, Except.bind, get, getThe, MonadStateOf.get, StateT.get,
          modify, modifyGet, MonadStateOf.modifyGet, pure, StateT.pure, Except.pure]
        rfl
      | some target =>
        simp [hbudget, bind, StateT.bind, Except.bind, get, getThe, MonadStateOf.get, StateT.get,
          modify, modifyGet, MonadStateOf.modifyGet, StateT.modifyGet, pure, StateT.pure,
          Except.pure]
  | _ => rfl

/-- Expansions of the nodes inside a collection that go together. -/
def InsideAlike (inside inside' : Option (Node → Expansion Tree)) : Prop :=
  (inside = none ∧ inside' = none) ∨
    ∃ expand expand', inside = some expand ∧ inside' = some expand' ∧
      ∀ node, expand' node.unstyled = expand node

theorem ofNodeWith_unstyled {inside inside' : Option (Node → Expansion Tree)}
    (h : InsideAlike inside inside') (node : Node) :
    ofNodeWith inside' node.unstyled = ofNodeWith inside node := by
  cases node with
  | «alias» => rfl
  | scalar marks text plain =>
    rw [unstyled, ofNodeWith, ofNodeWith]
    by_cases hdecimal : isDecimal text = true
    · have hcomma := comma_mem_of_isDecimal hdecimal
      rw [ofScalar_of_comma hcomma, ← ofScalar_of_comma hcomma]
    · rw [Bool.not_eq_true] at hdecimal
      rw [hdecimal, Bool.not_false, Bool.and_true]
  | sequence marks items =>
    rcases h with ⟨rfl, rfl⟩ | ⟨expand, expand', rfl, rfl, hexpand⟩
    · rfl
    · have hitems : (items.map unstyled).mapM expand' = items.mapM expand := by
        rw [List.mapM_map]
        congr 1
        funext node
        exact hexpand node
      unfold unstyled ofNodeWith
      dsimp only
      rw [unstyledItems_eq_map, hitems]
  | mapping marks entries =>
    rcases h with ⟨rfl, rfl⟩ | ⟨expand, expand', rfl, rfl, hexpand⟩
    · rfl
    · unfold unstyled ofNodeWith
      dsimp only
      rw [unstyledEntries_eq_map, List.mapM_map]
      congr 1
      congr 1
      funext entry
      simp only [Function.comp, hexpand]

theorem ofNode_unstyled (table : List (Nat × Node)) (nesting : Nat) (node : Node) :
    ofNode (unstyledTable table) nesting node.unstyled = ofNode table nesting node := by
  induction nesting generalizing node with
  | zero =>
    rw [ofNode, ofNode, referent_unstyled, bind_assoc]
    congr 1
    funext node
    rw [pure_bind]
    exact ofNodeWith_unstyled (.inl ⟨rfl, rfl⟩) node
  | succ nesting ih =>
    rw [ofNode, ofNode, referent_unstyled, bind_assoc]
    congr 1
    funext node
    rw [pure_bind]
    exact ofNodeWith_unstyled (.inr ⟨_, _, rfl, rfl, ih⟩) node

/-! ## Nodes that are apart -/

section

variable {α β : Type}

theorem bind_eq_ok {m : Expansion α} {k : α → Expansion β} {budget : Nat} {result : β × Nat}
    (h : (m >>= k) budget = .ok result) :
    ∃ a rest, m budget = .ok (a, rest) ∧ k a rest = .ok result := by
  change (m budget >>= fun p => k p.1 p.2) = _ at h
  cases hm : m budget with
  | error => rw [hm] at h; cases h
  | ok p => rw [hm] at h; exact ⟨p.1, p.2, rfl, h⟩

theorem mapM_eq_ok {f : α → Expansion β} {before after : List α} {a : α} {budget rest : Nat}
    {values : List β} (h : (before ++ a :: after).mapM f budget = .ok (values, rest)) :
    ∃ before' b after' budget' rest', values = before' ++ b :: after' ∧
      before'.length = before.length ∧ f a budget' = .ok (b, rest') := by
  induction before generalizing budget values with
  | nil =>
    rw [List.nil_append, List.mapM_cons] at h
    obtain ⟨b, rest', hb, h⟩ := bind_eq_ok h
    obtain ⟨after', rest'', -, h⟩ := bind_eq_ok h
    obtain ⟨rfl, -⟩ := Prod.mk.inj (Except.ok.inj h)
    exact ⟨[], b, after', budget, rest', rfl, rfl, hb⟩
  | cons first before ih =>
    rw [List.cons_append, List.mapM_cons] at h
    obtain ⟨b, rest', -, h⟩ := bind_eq_ok h
    obtain ⟨values', rest'', hvalues, h⟩ := bind_eq_ok h
    obtain ⟨rfl, rfl⟩ := Prod.mk.inj (Except.ok.inj h)
    obtain ⟨before', c, after', budget', rest', rfl, hlength, hc⟩ := ih hvalues
    exact ⟨b :: before', c, after', budget', rest', rfl, by simp [hlength], hc⟩

end

theorem eq_append_of_addEntries {entries pairs result : Entries} {budget rest : Nat}
    (h : (pairs.foldlM (fun entries pair => (addEntry entries pair.1 pair.2 : Expansion Entries))
      entries) budget = .ok (result, rest)) : result = entries ++ pairs := by
  induction pairs generalizing entries budget with
  | nil =>
    obtain ⟨rfl, -⟩ := Prod.mk.inj (Except.ok.inj h)
    simp
  | cons pair pairs ih =>
    rw [List.foldlM_cons] at h
    obtain ⟨entries', rest', hentries, h⟩ := bind_eq_ok h
    obtain rfl : entries' = entries ++ [pair] := by
      change (addEntry entries pair.1 pair.2 >>= fun a => pure (a, budget)) = _ at hentries
      unfold addEntry at hentries
      split at hentries
      · cases hentries
      · obtain ⟨rfl, -⟩ := Prod.mk.inj (Except.ok.inj hentries)
        rfl
    rw [ih h, List.append_assoc, List.singleton_append]

section

variable {table : List (Nat × Node)} {nesting budget rest : Nat} {marks : NodeMarks} {tree : Tree}

theorem ofNode_scalar {text : List Char} {plain : Bool}
    (h : ofNode table nesting (.scalar marks text plain) budget = .ok (tree, rest)) :
    ofScalar marks.tag text plain = .ok tree := by
  have hscalar : (ofScalar marks.tag text plain >>= fun tree => pure (tree, budget)) =
      .ok (tree, rest) := by
    cases nesting <;> exact h
  cases hvalue : ofScalar marks.tag text plain with
  | error => rw [hvalue] at hscalar; cases hscalar
  | ok value =>
    rw [hvalue] at hscalar
    obtain ⟨rfl, -⟩ := Prod.mk.inj (Except.ok.inj hscalar)
    rfl

theorem ofNode_sequence {items : List Node}
    (h : ofNode table nesting (.sequence marks items) budget = .ok (tree, rest)) :
    ∃ nesting values rest, items.mapM (ofNode table nesting) budget = .ok (values, rest) ∧
      tree = withTag marks.tag (.sequence values) := by
  cases nesting with
  | zero => cases h
  | succ nesting =>
    change (items.mapM (ofNode table nesting) >>= fun values =>
      pure (withTag marks.tag (.sequence values))) budget = _ at h
    obtain ⟨values, rest', hvalues, h⟩ := bind_eq_ok h
    obtain ⟨rfl, -⟩ := Prod.mk.inj (Except.ok.inj h)
    exact ⟨nesting, values, rest', hvalues, rfl⟩

/-- The expansion of an entry. -/
def ofEntry (table : List (Nat × Node)) (nesting : Nat) (entry : Node × Node) :
    Expansion (Tree × Tree) :=
  return (← ofNode table nesting entry.1, ← ofNode table nesting entry.2)

theorem ofNode_mapping {entries : List (Node × Node)}
    (h : ofNode table nesting (.mapping marks entries) budget = .ok (tree, rest)) :
    ∃ nesting pairs rest, entries.mapM (ofEntry table nesting) budget = .ok (pairs, rest) ∧
      tree = withTag marks.tag (.mapping pairs) := by
  cases nesting with
  | zero => cases h
  | succ nesting =>
    change (entries.mapM (ofEntry table nesting) >>= fun pairs =>
      pairs.foldlM (fun entries pair => (addEntry entries pair.1 pair.2 : Expansion Entries)) [] >>=
        fun entries => pure (withTag marks.tag (.mapping entries))) budget = _ at h
    obtain ⟨pairs, rest', hpairs, h⟩ := bind_eq_ok h
    obtain ⟨result, rest'', hresult, h⟩ := bind_eq_ok h
    obtain ⟨rfl, -⟩ := Prod.mk.inj (Except.ok.inj h)
    refine ⟨nesting, pairs, rest', hpairs, ?_⟩
    rw [eq_append_of_addEntries hresult, List.nil_append]

theorem ofEntry_eq_ok {entry : Node × Node} {pair : Tree × Tree}
    (h : ofEntry table nesting entry budget = .ok (pair, rest)) :
    ∃ between, ofNode table nesting entry.1 budget = .ok (pair.1, between) ∧
      ofNode table nesting entry.2 between = .ok (pair.2, rest) := by
  obtain ⟨key, between, hkey, h⟩ := bind_eq_ok h
  obtain ⟨value, rest', hvalue, h⟩ := bind_eq_ok h
  obtain ⟨rfl, rfl⟩ := Prod.mk.inj (Except.ok.inj h)
  exact ⟨between, hkey, hvalue⟩

end

/-- Nodes that are apart do not have the same tree. -/
theorem ofNode_ne_of_apart {node other : Node} (h : Apart node other)
    {table table' : List (Nat × Node)} {nesting nesting' budget budget' rest rest' : Nat}
    {tree tree' : Tree} (hnode : ofNode table nesting node budget = .ok (tree, rest))
    (hother : ofNode table' nesting' other budget' = .ok (tree', rest')) : tree ≠ tree' := by
  induction h generalizing nesting nesting' budget budget' rest rest' tree tree' with
  | scalar h =>
    obtain ⟨hne, hcomma | hcomma⟩ := h
    · exact ofScalar_apart hne hcomma (ofNode_scalar hnode) (ofNode_scalar hother)
    · exact (ofScalar_apart hne.symm hcomma (ofNode_scalar hother) (ofNode_scalar hnode)).symm
  | item hlength h ih =>
    obtain ⟨_, values, _, hvalues, rfl⟩ := ofNode_sequence hnode
    obtain ⟨_, values', _, hvalues', rfl⟩ := ofNode_sequence hother
    obtain ⟨before, value, after, _, _, rfl, hbefore, hvalue⟩ := mapM_eq_ok hvalues
    obtain ⟨before', value', after', _, _, rfl, hbefore', hvalue'⟩ := mapM_eq_ok hvalues'
    intro heq
    have hlists := Tree.sequence.inj (withTag_injective _ heq)
    obtain ⟨-, hrest⟩ := List.append_inj hlists (by rw [hbefore, hbefore', hlength])
    exact ih hvalue hvalue' (List.cons.inj hrest).1
  | key hlength h ih =>
    obtain ⟨_, pairs, _, hpairs, rfl⟩ := ofNode_mapping hnode
    obtain ⟨_, pairs', _, hpairs', rfl⟩ := ofNode_mapping hother
    obtain ⟨before, pair, after, _, _, rfl, hbefore, hpair⟩ := mapM_eq_ok hpairs
    obtain ⟨before', pair', after', _, _, rfl, hbefore', hpair'⟩ := mapM_eq_ok hpairs'
    obtain ⟨_, hkey, -⟩ := ofEntry_eq_ok hpair
    obtain ⟨_, hkey', -⟩ := ofEntry_eq_ok hpair'
    intro heq
    have hlists := Tree.mapping.inj (withTag_injective _ heq)
    obtain ⟨-, hrest⟩ := List.append_inj hlists (by rw [hbefore, hbefore', hlength])
    exact ih hkey hkey' (congrArg Prod.fst (List.cons.inj hrest).1)
  | value hlength h ih =>
    obtain ⟨_, pairs, _, hpairs, rfl⟩ := ofNode_mapping hnode
    obtain ⟨_, pairs', _, hpairs', rfl⟩ := ofNode_mapping hother
    obtain ⟨before, pair, after, _, _, rfl, hbefore, hpair⟩ := mapM_eq_ok hpairs
    obtain ⟨before', pair', after', _, _, rfl, hbefore', hpair'⟩ := mapM_eq_ok hpairs'
    obtain ⟨_, -, hvalue⟩ := ofEntry_eq_ok hpair
    obtain ⟨_, -, hvalue'⟩ := ofEntry_eq_ok hpair'
    intro heq
    have hlists := Tree.mapping.inj (withTag_injective _ heq)
    obtain ⟨-, hrest⟩ := List.append_inj hlists (by rw [hbefore, hbefore', hlength])
    exact ih hvalue hvalue' (congrArg Prod.snd (List.cons.inj hrest).1)

end Tree

/-! ## Texts -/

/-- The tree of the node of a document. -/
def Node.tree (node : Node) : Except ReadError Tree :=
  (Tree.ofNode node.anchored maxNesting node (100 * node.weight)).map Prod.fst

theorem read_eq (text : List Char) :
    read text = (do (← Node.ofTokens (← scan text)).tree) := rfl

theorem Node.tree_eq_of_alike {node other : Node} (h : NodesAlike node other) :
    node.tree = other.tree := by
  have hunstyled : ∀ node : Node, node.unstyled.tree = node.tree := by
    intro node
    unfold Node.tree
    rw [anchored_unstyled, weight_unstyled, Tree.ofNode_unstyled]
  rw [← hunstyled node, ← hunstyled other, h]

theorem Node.tree_ne_of_apart {node other : Node} (h : Apart node other) {tree tree' : Tree}
    (hnode : node.tree = .ok tree) (hother : other.tree = .ok tree') : tree ≠ tree' := by
  unfold Node.tree at hnode hother
  cases hp : Tree.ofNode node.anchored maxNesting node (100 * node.weight) with
  | error => rw [hp] at hnode; cases hnode
  | ok p =>
    cases hp' : Tree.ofNode other.anchored maxNesting other (100 * other.weight) with
    | error => rw [hp'] at hother; cases hother
    | ok p' =>
      rw [hp] at hnode
      rw [hp'] at hother
      obtain rfl := Except.ok.inj hnode
      obtain rfl := Except.ok.inj hother
      exact Tree.ofNode_ne_of_apart h hp hp'

/-- Two texts have the same tokens up to the style of decimals. -/
def SameTokens (text other : List Char) : Prop :=
  ∃ tokens others, scan text = .ok tokens ∧ scan other = .ok others ∧
    tokens.map Token.unstyled = others.map Token.unstyled

/-- Reading two texts has the same outcome: the same tree, or both texts are refused. -/
def ReadAlike (text other : List Char) : Prop :=
  (∃ tree, read text = .ok tree ∧ read other = .ok tree) ∨
    ∃ error error', read text = .error error ∧ read other = .error error'

/-- Texts with the same tokens up to the style of decimals are read alike. -/
theorem readAlike_of_sameTokens {text other : List Char} (h : SameTokens text other) :
    ReadAlike text other := by
  obtain ⟨tokens, others, htokens, hothers, hsame⟩ := h
  unfold ReadAlike
  rw [read_eq, read_eq, htokens, hothers]
  change (∃ tree, (Node.ofTokens tokens >>= Node.tree) = .ok tree ∧
    (Node.ofTokens others >>= Node.tree) = .ok tree) ∨
      ∃ error error', (Node.ofTokens tokens >>= Node.tree) = .error error ∧
        (Node.ofTokens others >>= Node.tree) = .error error'
  rcases Node.ofTokens_alike hsame with ⟨node, other, hnode, hother, halike⟩ |
    ⟨error, error', herror, herror'⟩
  · rw [hnode, hother]
    change (∃ tree, node.tree = .ok tree ∧ other.tree = .ok tree) ∨
      ∃ error error', node.tree = .error error ∧ other.tree = .error error'
    rw [Node.tree_eq_of_alike halike]
    cases other.tree with
    | ok tree => exact .inl ⟨tree, rfl, rfl⟩
    | error error => exact .inr ⟨error, error, rfl, rfl⟩
  · rw [herror, herror']
    exact .inr ⟨error, error', rfl, rfl⟩

/-- Texts whose tokens part at a scalar do not have the same tree. -/
theorem read_ne_of_part {text other : List Char} {tokens others : List Token}
    (htokens : scan text = .ok tokens) (hothers : scan other = .ok others)
    (hpart : TokensAlike True tokens others) {tree : Tree} (htree : read text = .ok tree) :
    read other ≠ .ok tree := by
  intro htree'
  rw [read_eq, htokens] at htree
  rw [read_eq, hothers] at htree'
  change (Node.ofTokens tokens >>= Node.tree) = .ok tree at htree
  change (Node.ofTokens others >>= Node.tree) = .ok tree at htree'
  cases hnode : Node.ofTokens tokens with
  | error => rw [hnode] at htree; cases htree
  | ok node =>
    cases hother : Node.ofTokens others with
    | error => rw [hother] at htree'; cases htree'
    | ok other =>
      rw [hnode] at htree
      rw [hother] at htree'
      exact Node.tree_ne_of_apart (Node.ofTokens_apart hpart hnode hother) htree htree' rfl

end RamlDoc.Yaml
