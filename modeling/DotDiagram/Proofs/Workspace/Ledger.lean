import DotDiagram.Proofs.Workspace.Growth

/-! Ledgers and trees. If the receiver always stands in the tree of the open graph, each
graph claims just the names and the pairs that stand in its tree, no name stands in a tree
twice, and no listed node is ever replaced. -/

namespace DotDiagram

namespace Layout

variable {l l' : Layout} {receiver : Option Container} {current : Option GraphId}
  {g g' : GraphId} {n : NodeId} {e : EdgeId}

/-- Two trees share nothing. -/
theorem WellFormed.root_unique (h : l.WellFormed) {c : Container} (hc : l.Within (.graph g) c)
    (hc' : l.Within (.graph g') c) : g = g' := by
  induction hc with
  | refl =>
    cases hc' with
    | refl => rfl
    | tail _ hd =>
      obtain ⟨s, hs, -⟩ := hd
      cases hs
  | tail _ hd ih =>
    obtain ⟨s, rfl, hs⟩ := hd
    cases hc' with
    | tail hp hd' =>
      obtain ⟨s', hs', hm⟩ := hd'
      cases hs'
      have hcd := h.subgraphsOnce.owner_unique hs hm
      exact ih (hcd ▸ hp)

theorem within_congr (h : ∀ c, (l'.contents c).subgraphs = (l.contents c).subgraphs)
    {c d : Container} : l'.Within c d ↔ l.Within c d := by
  have hchild : l'.Child = l.Child := by
    funext a b
    simp only [Child, h]
  simp only [Within, hchild]

/-- The receiver stands in the tree of the open graph. -/
structure Rooted (l : Layout) (receiver : Option Container) (current : Option GraphId) :
    Prop where
  closed : current = none → receiver = none
  within : ∀ g, current = some g → ∃ c, receiver = some c ∧ l.Within (.graph g) c

theorem Rooted.extended (h : l.Rooted receiver current) (hl : l.Extended l') :
    l'.Rooted receiver current := by
  refine ⟨h.closed, fun g hg => ?_⟩
  obtain ⟨c, hc, hin⟩ := h.within g hg
  exact ⟨c, hc, hl.within hin⟩

theorem Rooted.current_eq (h : l.Rooted receiver current) (hw : l.WellFormed) {c : Container}
    (hc : receiver = some c) (hin : l.Within (.graph g) c) : current = some g := by
  cases hcur : current with
  | none => cases (h.closed hcur).symm.trans hc
  | some g' =>
    obtain ⟨c', hc', hin'⟩ := h.within g' hcur
    cases hc'.symm.trans hc
    rw [hw.root_unique hin' hin]

/-- What the receiver lists from now on stands in the tree of the open graph, and in no
other. -/
theorem Rooted.exists_or (h : l.Rooted receiver current) (hw : l.WellFormed)
    (old : Container → Prop) (new : Prop) :
    (∃ c, l.Within (.graph g) c ∧ (old c ∨ new ∧ receiver = some c)) ↔
      (∃ c, l.Within (.graph g) c ∧ old c) ∨ new ∧ current = some g := by
  constructor
  · rintro ⟨c, hin, hc | ⟨hnew, hc⟩⟩
    · exact .inl ⟨c, hin, hc⟩
    · exact .inr ⟨hnew, h.current_eq hw hc hin⟩
  · rintro (⟨c, hin, hc⟩ | ⟨hnew, hg⟩)
    · exact ⟨c, hin, .inl hc⟩
    · obtain ⟨c, hc, hin⟩ := h.within g hg
      exact ⟨c, hin, .inr ⟨hnew, hc⟩⟩

structure Ledgered (l : Layout) : Prop where
  names : ∀ g name, name ∈ (l.claims g).names ↔ ∃ n, l.NodeIn g n ∧ l.nodeName n = name
  pairs : ∀ g pair, pair ∈ (l.claims g).pairs ↔ ∃ e, l.EdgeIn g e ∧ l.edgeKey? e = some pair
  distinct : ∀ g n n', l.NodeIn g n → l.NodeIn g n' → l.nodeName n = l.nodeName n' → n = n'
  listed : ∀ (n : NodeId) name, l.nodes[n.index]? = some (name, true) →
    ∃ c, n ∈ (l.contents c).nodes

theorem Ledgered.empty : Layout.empty.Ledgered := by
  constructor <;> simp [Layout.empty, Contents.empty, NodeIn, EdgeIn]

section

variable {name : String}

theorem within_addNode {c d : Container} :
    (l.addNode receiver current name).Within c d ↔ l.Within c d :=
  within_congr (l.contents_subgraphs_addNode receiver current name)

theorem mem_nodes_addNode (hk : ∀ c, receiver = some c → name ∉ l.keys c) {c : Container} :
    n ∈ ((l.addNode receiver current name).contents c).nodes ↔
      n ∈ (l.contents c).nodes ∨ n = ⟨l.nodes.length⟩ ∧ receiver = some c := by
  rw [contents_addNode]
  by_cases hc : receiver = some c
  · simp [hc, place_of_not_mem _ _ (hk c hc)]
  · simp [hc]

theorem nodes_prefix_addNode (hk : ∀ c, receiver = some c → name ∉ l.keys c) (c : Container) :
    (l.contents c).nodes <+: ((l.addNode receiver current name).contents c).nodes := by
  rw [contents_addNode]
  by_cases hc : receiver = some c
  · rw [if_pos hc, place_of_not_mem _ _ (hk c hc)]
    exact List.prefix_append _ _
  · exact prefix_of_eq (congrArg Contents.nodes (if_neg hc))

theorem nodeIn_addNode (hw : l.WellFormed) (hr : l.Rooted receiver current)
    (hk : ∀ c, receiver = some c → name ∉ l.keys c) :
    (l.addNode receiver current name).NodeIn g n ↔
      l.NodeIn g n ∨ n = ⟨l.nodes.length⟩ ∧ current = some g := by
  simp only [NodeIn, within_addNode, mem_nodes_addNode hk]
  exact hr.exists_or hw _ _

theorem edgeIn_addNode : (l.addNode receiver current name).EdgeIn g e ↔ l.EdgeIn g e := by
  simp only [EdgeIn, within_addNode, contents_edges_addNode]

theorem mem_names_addNode {x : String} :
    x ∈ ((l.addNode receiver current name).claims g).names ↔
      x ∈ (l.claims g).names ∨ x = name ∧ current = some g := by
  by_cases hg : current = some g <;>
    simp [addNode, listNode, claim, pushNode, Claims.addName, hg, or_comm]

theorem pairs_addNode :
    ((l.addNode receiver current name).claims g).pairs = (l.claims g).pairs := by
  by_cases hg : current = some g <;>
    simp [addNode, listNode, claim, pushNode, Claims.addName, hg]

theorem edgeKey?_addNode (hw : l.WellFormed) :
    (l.addNode receiver current name).edgeKey? e = l.edgeKey? e := by
  rw [edgeKey?, edges_addNode, edgeKey?]
  cases he : l.edges[e.index]? with
  | none => rfl
  | some edge =>
    obtain ⟨source, target, attached⟩ := edge
    obtain ⟨hs, ht⟩ := hw.ends e.index source target attached he
    simp [nodeName_addNode, hs, ht]

/-- A name that a graph does not claim is new to whatever receives the node. -/
theorem Ledgered.fresh_keys (h : l.Ledgered) (hw : l.WellFormed) (hr : l.Rooted receiver current)
    (fresh : ∀ g, current = some g → name ∉ (l.claims g).names) :
    ∀ c, receiver = some c → name ∉ l.keys c := by
  intro c hc hk
  cases c with
  | graph g =>
    rw [hw.unkeyed g] at hk
    cases hk
  | subgraph s =>
    cases hcur : current with
    | none => cases (hr.closed hcur).symm.trans hc
    | some g =>
      obtain ⟨c', hc', hin⟩ := hr.within g hcur
      cases hc'.symm.trans hc
      rw [hw.named s] at hk
      obtain ⟨n, hn, hname⟩ := List.mem_map.mp hk
      exact fresh g hcur ((h.names g name).mpr ⟨n, ⟨_, hin, hn⟩, hname⟩)

theorem NodeIn.known (h : l.NodeIn g n) (hw : l.WellFormed) : n.index < l.nodes.length := by
  obtain ⟨c, -, hn⟩ := h
  exact hw.node_known hn

theorem Ledgered.addNode (h : l.Ledgered) (hw : l.WellFormed) (hr : l.Rooted receiver current)
    (fresh : ∀ g, current = some g → name ∉ (l.claims g).names) :
    (l.addNode receiver current name).Ledgered := by
  have hk := h.fresh_keys hw hr fresh
  have hold : ∀ {g n}, l.NodeIn g n →
      (l.addNode receiver current name).nodeName n = l.nodeName n :=
    fun hn => l.nodeName_addNode receiver current name (hn.known hw)
  have hnew := l.nodeName_addNode_new receiver current name
  refine ⟨fun g x => ?_, fun g pair => ?_, fun g n n' hn hn' hname => ?_, fun n x hx => ?_⟩
  · rw [mem_names_addNode, h.names g x]
    constructor
    · rintro (⟨n, hn, hx⟩ | ⟨rfl, hg⟩)
      · exact ⟨n, (nodeIn_addNode hw hr hk).mpr (.inl hn), (hold hn).trans hx⟩
      · exact ⟨_, (nodeIn_addNode hw hr hk).mpr (.inr ⟨rfl, hg⟩), hnew⟩
    · rintro ⟨n, hn, hx⟩
      rcases (nodeIn_addNode hw hr hk).mp hn with hn | ⟨rfl, hg⟩
      · exact .inl ⟨n, hn, (hold hn).symm.trans hx⟩
      · exact .inr ⟨hx.symm.trans hnew, hg⟩
  · simp only [pairs_addNode, edgeIn_addNode, edgeKey?_addNode hw, h.pairs g pair]
  · -- The tree had no node of the new name, since the graph would have claimed it.
    have hclash : ∀ m, l.NodeIn g m → current = some g → l.nodeName m ≠ name :=
      fun m hm hg hx => fresh g hg ((h.names g name).mpr ⟨m, hm, hx⟩)
    rcases (nodeIn_addNode hw hr hk).mp hn with hn | ⟨rfl, hg⟩
    · rcases (nodeIn_addNode hw hr hk).mp hn' with hn' | ⟨rfl, hg⟩
      · exact h.distinct g n n' hn hn' (by rw [← hold hn, ← hold hn', hname])
      · exact absurd (by rw [← hold hn, hname, hnew]) (hclash n hn hg)
    · rcases (nodeIn_addNode hw hr hk).mp hn' with hn' | ⟨rfl, -⟩
      · exact absurd (by rw [← hold hn', ← hname, hnew]) (hclash n' hn' hg)
      · rfl
  · rw [nodes_addNode] at hx
    rcases getElem?_concat_cases hx with hx | ⟨hx, hi⟩
    · obtain ⟨c, hc⟩ := h.listed n x hx
      exact ⟨c, (mem_nodes_addNode hk).mpr (.inl hc)⟩
    · have hsome : receiver.isSome = true := (congrArg Prod.snd hx).symm
      obtain ⟨c, hc⟩ := Option.isSome_iff_exists.mp hsome
      exact ⟨c, (mem_nodes_addNode hk).mpr (.inr ⟨congrArg NodeId.mk hi, hc⟩)⟩

end

section

variable {source target : NodeId} {attached : Bool}

theorem within_addEdge {c d : Container} :
    (l.addEdge receiver current source target attached).Within c d ↔ l.Within c d :=
  within_congr (l.contents_subgraphs_addEdge receiver current source target attached)

theorem nodeIn_addEdge :
    (l.addEdge receiver current source target attached).NodeIn g n ↔ l.NodeIn g n := by
  simp only [NodeIn, within_addEdge, contents_nodes_addEdge]

theorem edgeIn_addEdge (hw : l.WellFormed) (hr : l.Rooted receiver current) :
    (l.addEdge receiver current source target attached).EdgeIn g e ↔
      l.EdgeIn g e ∨ e = ⟨l.edges.length⟩ ∧ attached = true ∧ current = some g := by
  simp only [EdgeIn, within_addEdge, mem_edges_addEdge, ← and_assoc]
  exact hr.exists_or hw _ _

theorem names_addEdge :
    ((l.addEdge receiver current source target attached).claims g).names =
      (l.claims g).names := by
  cases attached with
  | false => rfl
  | true =>
    by_cases hg : current = some g <;> simp [addEdge, list, claim, pushEdge, Claims.addPair, hg]

theorem mem_pairs_addEdge {pair : String × String} :
    pair ∈ ((l.addEdge receiver current source target attached).claims g).pairs ↔
      pair ∈ (l.claims g).pairs ∨
        pair = (l.nodeName source, l.nodeName target) ∧ attached = true ∧ current = some g := by
  cases attached with
  | false => simp [addEdge, pushEdge]
  | true =>
    by_cases hg : current = some g <;>
      simp [addEdge, list, claim, pushEdge, Claims.addPair, hg, or_comm]

theorem edgeKey?_addEdge (he : e.index < l.edges.length) :
    (l.addEdge receiver current source target attached).edgeKey? e = l.edgeKey? e := by
  simp only [edgeKey?, edges_addEdge, List.getElem?_append_left he, nodeName_addEdge]

theorem edgeKey?_addEdge_new :
    (l.addEdge receiver current source target attached).edgeKey? ⟨l.edges.length⟩ =
      some (l.nodeName source, l.nodeName target) := by
  simp [edgeKey?]

theorem EdgeIn.known (h : l.EdgeIn g e) (hw : l.WellFormed) : e.index < l.edges.length := by
  obtain ⟨c, -, he⟩ := h
  exact hw.edge_known he

theorem Ledgered.addEdge (h : l.Ledgered) (hw : l.WellFormed)
    (hr : l.Rooted receiver current) :
    (l.addEdge receiver current source target attached).Ledgered := by
  have hold : ∀ {g e}, l.EdgeIn g e →
      (l.addEdge receiver current source target attached).edgeKey? e = l.edgeKey? e :=
    fun he => edgeKey?_addEdge (he.known hw)
  refine ⟨fun g x => ?_, fun g pair => ?_, fun g n n' hn hn' => ?_, fun n x hx => ?_⟩
  · simp only [names_addEdge, nodeIn_addEdge, nodeName_addEdge, h.names g x]
  · rw [mem_pairs_addEdge, h.pairs g pair]
    constructor
    · rintro (⟨e, he, hp⟩ | ⟨rfl, hg⟩)
      · exact ⟨e, (edgeIn_addEdge hw hr).mpr (.inl he), (hold he).trans hp⟩
      · exact ⟨_, (edgeIn_addEdge hw hr).mpr (.inr ⟨rfl, hg⟩), edgeKey?_addEdge_new⟩
    · rintro ⟨e, he, hp⟩
      rcases (edgeIn_addEdge hw hr).mp he with he | ⟨rfl, hg⟩
      · exact .inl ⟨e, he, (hold he).symm.trans hp⟩
      · rw [edgeKey?_addEdge_new] at hp
        exact .inr ⟨(Option.some.inj hp).symm, hg⟩
  · simp only [nodeName_addEdge]
    exact h.distinct g n n' (nodeIn_addEdge.mp hn) (nodeIn_addEdge.mp hn')
  · rw [nodes_addEdge] at hx
    simp only [contents_nodes_addEdge]
    exact h.listed n x hx

end

/-- A new subgraph is empty, so whatever stands in a tree stood there before. -/
theorem within_addSubgraph (hw : l.WellFormed) {c : Container}
    (h : (l.addSubgraph receiver).Within (.graph g) c) :
    l.Within (.graph g) c ∨ c = .subgraph ⟨l.subgraphs⟩ := by
  induction h with
  | refl => exact .inl .refl
  | tail _ hd ih =>
    obtain ⟨s, rfl, hs⟩ := hd
    rcases (l.mem_subgraphs_addSubgraph receiver).mp hs with hs | ⟨rfl, -⟩
    · rcases ih with hp | rfl
      · exact .inl (hp.tail ⟨s, rfl, hs⟩)
      · rw [hw.blank _ (Nat.lt_irrefl _)] at hs
        cases hs
    · exact .inr rfl

theorem extended_addSubgraph : l.Extended (l.addSubgraph receiver) := by
  have hg : Grow receiver none l (l.addSubgraph receiver) := .subgraph
  exact hg.extended

theorem nodeIn_addSubgraph (hw : l.WellFormed) :
    (l.addSubgraph receiver).NodeIn g n ↔ l.NodeIn g n := by
  constructor
  · rintro ⟨c, hc, hn⟩
    rw [contents_nodes_addSubgraph] at hn
    rcases within_addSubgraph hw hc with hc | rfl
    · exact ⟨c, hc, hn⟩
    · rw [hw.blank _ (Nat.lt_irrefl _)] at hn
      cases hn
  · rintro ⟨c, hc, hn⟩
    exact ⟨c, extended_addSubgraph.within hc, by rwa [contents_nodes_addSubgraph]⟩

theorem edgeIn_addSubgraph (hw : l.WellFormed) :
    (l.addSubgraph receiver).EdgeIn g e ↔ l.EdgeIn g e := by
  constructor
  · rintro ⟨c, hc, he⟩
    rw [contents_edges_addSubgraph] at he
    rcases within_addSubgraph hw hc with hc | rfl
    · exact ⟨c, hc, he⟩
    · rw [hw.blank _ (Nat.lt_irrefl _)] at he
      cases he
  · rintro ⟨c, hc, he⟩
    exact ⟨c, extended_addSubgraph.within hc, by rwa [contents_edges_addSubgraph]⟩

theorem Ledgered.addSubgraph (h : l.Ledgered) (hw : l.WellFormed) :
    (l.addSubgraph receiver).Ledgered := by
  refine ⟨fun g x => ?_, fun g pair => ?_, fun g n n' hn hn' => ?_, fun n x hx => ?_⟩
  · simp only [nodeIn_addSubgraph hw]
    exact h.names g x
  · simp only [edgeIn_addSubgraph hw]
    exact h.pairs g pair
  · exact h.distinct g n n' ((nodeIn_addSubgraph hw).mp hn) ((nodeIn_addSubgraph hw).mp hn')
  · simp only [contents_nodes_addSubgraph]
    exact h.listed n x hx

theorem Grow.ledgered (hg : Grow receiver current l l') (h : l.Ledgered) (hw : l.WellFormed)
    (hr : l.Rooted receiver current) :
    l'.Ledgered ∧ ∀ c, (l.contents c).nodes <+: (l'.contents c).nodes := by
  cases hg with
  | node name fresh =>
    exact ⟨h.addNode hw hr fresh, nodes_prefix_addNode (h.fresh_keys hw hr fresh)⟩
  | edge _ _ _ => exact ⟨h.addEdge hw hr, fun c => prefix_of_eq (contents_nodes_addEdge ..)⟩
  | subgraph => exact ⟨h.addSubgraph hw, fun c => prefix_of_eq (contents_nodes_addSubgraph ..)⟩
  | graph => exact ⟨⟨h.names, h.pairs, h.distinct, h.listed⟩, fun c => List.prefix_refl _⟩

theorem Grown.ledgered (hg : Grown receiver current l l') (h : l.Ledgered) (hw : l.WellFormed)
    (hr : l.Rooted receiver current) (hk : ∀ c, receiver = some c → l.Has c) :
    l'.Ledgered ∧ ∀ c, (l.contents c).nodes <+: (l'.contents c).nodes := by
  induction hg with
  | refl => exact ⟨h, fun c => List.prefix_refl _⟩
  | tail hs hst ih =>
    obtain ⟨h', hp⟩ := ih
    have hl := Grown.extended hs
    have hw' := Grown.wellFormed hs hw hk
    obtain ⟨h'', hp'⟩ := hst.ledgered h' hw' (hr.extended hl)
    exact ⟨h'', fun c => (hp c).trans (hp' c)⟩

end Layout

end DotDiagram
