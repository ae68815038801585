import DotDiagram.Proofs.Workspace.Containment

/-! How a layout grows while the same containers are open. All that was made is still
there, unchanged, and all listed edges and subgraphs keep their places. -/

namespace DotDiagram

namespace Layout

/-- One thing is made. The open graph refuses the names that it claims, and edges connect
nodes that exist. -/
inductive Grow (receiver : Option Container) (current : Option GraphId) (l : Layout) :
    Layout → Prop where
  | node (name : String) (fresh : ∀ g, current = some g → name ∉ (l.claims g).names) :
      Grow receiver current l (l.addNode receiver current name)
  | edge {source target : NodeId} {attached : Bool} (source_known : source.index < l.nodes.length)
      (target_known : target.index < l.nodes.length)
      (received : attached = true → receiver.isSome = true) :
      Grow receiver current l (l.addEdge receiver current source target attached)
  | subgraph : Grow receiver current l (l.addSubgraph receiver)
  | graph : Grow receiver current l l.pushGraph

abbrev Grown (receiver : Option Container) (current : Option GraphId) (l l' : Layout) : Prop :=
  Relation.ReflTransGen (Grow receiver current) l l'

structure Extended (l l' : Layout) : Prop where
  nodes : l.nodes <+: l'.nodes
  edges : l.edges <+: l'.edges
  subgraphs : l.subgraphs ≤ l'.subgraphs
  graphs : l.graphs ≤ l'.graphs
  listedEdges : ∀ c, (l.contents c).edges <+: (l'.contents c).edges
  listedSubgraphs : ∀ c, (l.contents c).subgraphs <+: (l'.contents c).subgraphs

theorem prefix_of_eq {α : Type} {xs ys : List α} (h : ys = xs) : xs <+: ys :=
  h ▸ List.prefix_refl xs

namespace Extended

variable {l l' l'' : Layout}

theorem refl (l : Layout) : l.Extended l :=
  ⟨List.prefix_refl _, List.prefix_refl _, Nat.le_refl _, Nat.le_refl _,
    fun _ => List.prefix_refl _, fun _ => List.prefix_refl _⟩

theorem trans (h : l.Extended l') (h' : l'.Extended l'') : l.Extended l'' :=
  ⟨h.nodes.trans h'.nodes, h.edges.trans h'.edges, Nat.le_trans h.subgraphs h'.subgraphs,
    Nat.le_trans h.graphs h'.graphs, fun c => (h.listedEdges c).trans (h'.listedEdges c),
    fun c => (h.listedSubgraphs c).trans (h'.listedSubgraphs c)⟩

theorem has (h : l.Extended l') {c : Container} (hc : l.Has c) : l'.Has c :=
  hc.of_le h.subgraphs h.graphs

theorem within (h : l.Extended l') {c d : Container} (hc : l.Within c d) : l'.Within c d := by
  refine Relation.ReflTransGen.mono (fun a b hab => ?_) _ _ hc
  obtain ⟨s, rfl, hs⟩ := hab
  exact ⟨s, rfl, (h.listedSubgraphs a).subset hs⟩

theorem edge_kept (h : l.Extended l') {i : Nat} {edge : NodeId × NodeId × Bool}
    (he : l.edges[i]? = some edge) : l'.edges[i]? = some edge := by
  obtain ⟨rest, hrest⟩ := h.edges
  have hlt := (List.getElem?_eq_some_iff.mp he).1
  rw [← hrest, List.getElem?_append_left hlt, he]

theorem nodeName_kept (h : l.Extended l') {n : NodeId} (hn : n.index < l.nodes.length) :
    l'.nodeName n = l.nodeName n := by
  obtain ⟨rest, hrest⟩ := h.nodes
  rw [nodeName, ← hrest, List.getElem?_append_left hn, nodeName]

theorem edgeKey?_kept (h : l.Extended l') (hw : l.WellFormed) {e : EdgeId}
    (he : e.index < l.edges.length) : l'.edgeKey? e = l.edgeKey? e := by
  cases hedge : l.edges[e.index]? with
  | none => exact absurd (List.getElem?_eq_none_iff.mp hedge) (Nat.not_le_of_lt he)
  | some edge =>
    obtain ⟨source, target, attached⟩ := edge
    obtain ⟨hs, ht⟩ := hw.ends e.index source target attached hedge
    simp only [edgeKey?, h.edge_kept hedge, hedge, Option.map_some, h.nodeName_kept hs,
      h.nodeName_kept ht]

end Extended

variable {receiver : Option Container} {current : Option GraphId} {l l' : Layout}

theorem Grow.extended (h : Grow receiver current l l') : l.Extended l' := by
  cases h with
  | node name fresh =>
    refine ⟨List.prefix_append _ _, List.prefix_refl _, Nat.le_refl _, Nat.le_refl _, ?_, ?_⟩
    · exact fun c => prefix_of_eq (l.contents_edges_addNode receiver current name c)
    · exact fun c => prefix_of_eq (l.contents_subgraphs_addNode receiver current name c)
  | @edge source target attached _ _ _ =>
    refine ⟨by simp, by simp, by simp, by simp, fun c => ?_, fun c => by simp⟩
    rw [contents_addEdge]
    split
    · exact List.prefix_append _ _
    · exact List.prefix_refl _
  | subgraph =>
    refine ⟨List.prefix_refl _, List.prefix_refl _, Nat.le_succ _, Nat.le_refl _, ?_, ?_⟩
    · exact fun c => prefix_of_eq (l.contents_edges_addSubgraph receiver c)
    · intro c
      rw [contents_addSubgraph]
      split
      · exact List.prefix_append _ _
      · exact List.prefix_refl _
  | graph =>
    exact ⟨List.prefix_refl _, List.prefix_refl _, Nat.le_refl _, Nat.le_succ _,
      fun _ => List.prefix_refl _, fun _ => List.prefix_refl _⟩

theorem Grow.wellFormed (h : Grow receiver current l l') (hw : l.WellFormed)
    (hr : ∀ c, receiver = some c → l.Has c) : l'.WellFormed := by
  cases h with
  | node name fresh => exact hw.addNode hr name
  | edge source_known target_known received =>
    exact hw.addEdge hr source_known target_known received
  | subgraph => exact hw.addSubgraph hr
  | graph => exact hw.pushGraph

theorem Grown.extended (h : Grown receiver current l l') : l.Extended l' := by
  induction h with
  | refl => exact .refl l
  | tail _ hg ih => exact ih.trans hg.extended

theorem Grown.wellFormed (h : Grown receiver current l l') (hw : l.WellFormed)
    (hr : ∀ c, receiver = some c → l.Has c) : l'.WellFormed := by
  induction h with
  | refl => exact hw
  | tail hs hg ih => exact hg.wellFormed ih fun c hc => (Grown.extended hs).has (hr c hc)

end Layout

end DotDiagram
