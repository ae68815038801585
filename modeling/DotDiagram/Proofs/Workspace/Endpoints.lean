import DotDiagram.Proofs.Workspace.Rendition

/-! The ends of edges. An edge may connect nodes that stand in no tree or in another one, and
then its graph does not declare them, for a node stands where it was made and comes nowhere
later. But a graph never loses a name that it has once declared. -/

namespace DotDiagram

namespace Layout

/-- The names of the nodes that a container lists. -/
def names (l : Layout) (c : Container) : List String := (l.contents c).nodes.map l.nodeName

/-- Names only come in at the end of a list, and nodes only when they are made. -/
structure Steady (l l' : Layout) : Prop extends Extended l l' where
  names : ∀ c, l.names c <+: l'.names c
  entered : ∀ (g : GraphId) (n : NodeId), n.index < l.nodes.length → l'.NodeIn g n → l.NodeIn g n

variable {receiver : Option Container} {current : Option GraphId} {l l' l'' : Layout}
  {g : GraphId} {n : NodeId}

theorem names_of_same (h : l.Extended l') (hw : l.WellFormed) {c : Container}
    (hc : (l'.contents c).nodes = (l.contents c).nodes) : l'.names c = l.names c := by
  rw [names, hc, names]
  exact List.map_congr_left fun n hn => h.nodeName_kept (hw.node_known hn)

/-- A node that takes the place of another has its name. -/
theorem names_addNode_prefix (hw : l.WellFormed) (name : String) (c : Container) :
    l.names c <+: (l.addNode receiver current name).names c := by
  have hold : (l.contents c).nodes.map (l.addNode receiver current name).nodeName = l.names c :=
    List.map_congr_left fun n hn => l.nodeName_addNode receiver current name (hw.node_known hn)
  have hnew : (l.addNode receiver current name).names c =
      ((l.addNode receiver current name).contents c).nodes.map
        (l.addNode receiver current name).nodeName := rfl
  rw [hnew, contents_addNode]
  by_cases hc : receiver = some c
  · simp only [if_pos hc]
    by_cases hk : name ∈ l.keys c
    · cases c with
      | graph g =>
        rw [hw.unkeyed g] at hk
        cases hk
      | subgraph s =>
        have hnames := hw.named s
        rw [map_place (hold.trans hnames.symm) (l.nodeName_addNode_new receiver current name),
          if_pos hk]
        exact prefix_of_eq hnames
    · rw [place_of_not_mem _ _ hk, List.map_append, hold]
      exact List.prefix_append _ _
  · rw [if_neg hc]
    exact prefix_of_eq hold

theorem entered_addNode {name : String} (hn : n.index < l.nodes.length)
    (h : (l.addNode receiver current name).NodeIn g n) : l.NodeIn g n := by
  obtain ⟨c, hc, hm⟩ := h
  refine ⟨c, within_addNode.mp hc, ?_⟩
  obtain ⟨i, hi⟩ := List.mem_iff_getElem?.mp hm
  rw [contents_addNode] at hi
  split at hi
  · rcases getElem?_place hi with hi | ⟨rfl, -⟩
    · exact List.mem_of_getElem? hi
    · exact absurd hn (Nat.lt_irrefl _)
  · exact List.mem_of_getElem? hi

namespace Steady

theorem refl (l : Layout) : l.Steady l :=
  ⟨.refl l, fun _ => List.prefix_refl _, fun _ _ _ h => h⟩

theorem trans (h : l.Steady l') (h' : l'.Steady l'') : l.Steady l'' := by
  refine ⟨h.toExtended.trans h'.toExtended, fun c => (h.names c).trans (h'.names c), ?_⟩
  intro g n hn hin
  have hn' : n.index < l'.nodes.length := Nat.lt_of_lt_of_le hn h.nodes.length_le
  exact h.entered g n hn (h'.entered g n hn' hin)

/-- What stands in a tree by its name stands there for ever. -/
theorem exists_named (h : l.Steady l') (hn : l.NodeIn g n) :
    ∃ m, l'.NodeIn g m ∧ l'.nodeName m = l.nodeName n := by
  obtain ⟨c, hc, hn⟩ := hn
  have hname : l.nodeName n ∈ l'.names c := (h.names c).subset (List.mem_map_of_mem hn)
  obtain ⟨m, hm, hsame⟩ := List.mem_map.mp hname
  exact ⟨m, ⟨c, h.within hc, hm⟩, hsame⟩

end Steady

theorem Grow.steady (h : Grow receiver current l l') (hw : l.WellFormed) : l.Steady l' := by
  have hextended := h.extended
  cases h with
  | node name fresh =>
    exact ⟨hextended, names_addNode_prefix hw name, fun _ _ hn h => entered_addNode hn h⟩
  | @edge source target attached _ _ _ =>
    refine ⟨hextended, fun c => ?_, fun _ _ _ h => nodeIn_addEdge.mp h⟩
    exact prefix_of_eq (names_of_same hextended hw (l.contents_nodes_addEdge _ _ _ _ _ c))
  | subgraph =>
    refine ⟨hextended, fun c => ?_, fun _ _ _ h => (nodeIn_addSubgraph hw).mp h⟩
    exact prefix_of_eq (names_of_same hextended hw (l.contents_nodes_addSubgraph _ c))
  | graph => exact ⟨hextended, fun _ => List.prefix_refl _, fun _ _ _ h => h⟩

theorem Grown.steady (h : Grown receiver current l l') (hw : l.WellFormed)
    (hr : ∀ c, receiver = some c → l.Has c) : l.Steady l' := by
  induction h with
  | refl => exact .refl l
  | tail hs hg ih => exact ih.trans (hg.steady (Grown.wellFormed hs hw hr))

end Layout

namespace Workspace

variable {w : Workspace} {g : GraphId} {n : NodeId}

theorem exists_statement (hw : w.layout.WellFormed) (hn : w.layout.NodeIn g n) :
    ∃ statement, w.nodeStatement n = some statement ∧ statement.name = w.nodeName n := by
  obtain ⟨c, -, hn⟩ := hn
  obtain ⟨name, hname⟩ := hw.nodeListed c n hn
  rw [nodes_getElem?_layout] at hname
  obtain ⟨node, hnode, -⟩ := Option.map_eq_some_iff.mp hname
  exact ⟨⟨node.name, node.attrs⟩, by rw [nodeStatement, hnode]; rfl, by rw [nodeName, hnode]; rfl⟩

theorem exists_ends (hw : w.layout.WellFormed) {e : EdgeId} (he : w.layout.EdgeIn g e) :
    ∃ edge, w.edge? e = some edge ∧ w.HasNode edge.source ∧ w.HasNode edge.target := by
  obtain ⟨c, -, he⟩ := he
  obtain ⟨source, target, hlisted⟩ := (hw.edgeListed e).mp ⟨c, he⟩
  obtain ⟨hs, ht⟩ := hw.ends e.index source target true hlisted
  rw [edges_getElem?_layout] at hlisted
  obtain ⟨edge, hedge, hends⟩ := Option.map_eq_some_iff.mp hlisted
  have hsource : edge.source = source := congrArg Prod.fst hends
  have htarget : edge.target = target := congrArg (·.2.1) hends
  rw [length_nodes_layout, ← hsource] at hs
  rw [length_nodes_layout, ← htarget] at ht
  exact ⟨edge, hedge, hs, ht⟩

end Workspace

namespace Session

variable {s t : Session} {g : GraphId} {n : NodeId}

theorem steady_of_later (hs : Reachable s) (h : Relation.ReflTransGen Step s t) :
    s.workspace.layout.Steady t.workspace.layout :=
  chained .refl .trans
    (fun ht ha => Layout.Grown.steady (ha.grown ht.anchored).2 ht.wellFormed ht.receiver_known) hs h

theorem nodes_prefix_of_orderly (hs : Orderly s) (h : Relation.ReflTransGen OrderlyStep s t)
    (c : Container) :
    (s.workspace.layout.contents c).nodes <+: (t.workspace.layout.contents c).nodes := by
  induction h with
  | refl => exact List.prefix_refl _
  | tail hu hst ih =>
    have ho : Orderly _ := hs.trans hu
    have hsound := Sound.of_reachable (Orderly.reachable ho)
    exact ih.trans ((hsound.settled_step (settled_of_orderly ho) hst).2 c)

/-- How the node at an end of an edge stands to the graph of the edge, now and at a time
before. -/
structure EndKept (g : GraphId) (n : NodeId) (s t : Session) : Prop where
  known : t.workspace.HasNode n
  /-- It stands in the tree only if it was made there. -/
  entered : s.workspace.HasNode n → t.workspace.layout.NodeIn g n →
    s.workspace.layout.NodeIn g n
  /-- If it once stood there, then its name is declared, though it may be another node that
  now has the name. -/
  named : s.workspace.layout.NodeIn g n → ∀ doc, t.workspace.document? g = some doc →
    ∃ statement ∈ doc.declared, statement.name = t.workspace.nodeName n
  /-- As long as the session is orderly, it is this node. -/
  kept : Orderly s → Relation.ReflTransGen OrderlyStep s t → s.workspace.layout.NodeIn g n →
    t.workspace.layout.NodeIn g n ∧ ∀ doc, t.workspace.document? g = some doc →
      ∃ statement ∈ doc.declared, t.workspace.nodeStatement n = some statement

theorem end_kept (hs : Reachable s) (h : Relation.ReflTransGen Step s t)
    (hn : t.workspace.HasNode n) : EndKept g n s t := by
  have hw := (tended_of_reachable hs).wellFormed
  have hw' := (tended_of_reachable (hs.trans h)).wellFormed
  have hsteady := steady_of_later hs h
  refine ⟨hn, fun hold hin => ?_, fun hin doc hdoc => ?_, fun ho hrun hin => ?_⟩
  · rw [Workspace.HasNode, ← Workspace.length_nodes_layout] at hold
    exact hsteady.entered g n hold hin
  · obtain ⟨m, hm, hname⟩ := hsteady.exists_named hin
    obtain ⟨statement, hst, hsame⟩ := Workspace.exists_statement hw' hm
    refine ⟨statement, (Workspace.mem_declared_iff hw' hdoc).mpr ⟨m, hm, hst⟩, ?_⟩
    rw [hsame, ← Workspace.nodeName_layout, hname, ← Workspace.nodeName_layout,
      hsteady.nodeName_kept (hin.known hw)]
  · obtain ⟨c, hc, hn⟩ := hin
    have hin' : t.workspace.layout.NodeIn g n :=
      ⟨c, hsteady.within hc, (nodes_prefix_of_orderly ho hrun c).subset hn⟩
    refine ⟨hin', fun doc hdoc => ?_⟩
    obtain ⟨statement, hst, -⟩ := Workspace.exists_statement hw' hin'
    exact ⟨statement, (Workspace.mem_declared_iff hw' hdoc).mpr ⟨n, hin', hst⟩, hst⟩

/-- So an edge dangles only if one of its ends was made elsewhere. -/
theorem ends_kept (hs : Reachable s) (h : Relation.ReflTransGen Step s t) (g : GraphId) :
    (∀ e, t.workspace.layout.EdgeIn g e → ∃ edge, t.workspace.edge? e = some edge ∧
        EndKept g edge.source s t ∧ EndKept g edge.target s t) ∧
      ∀ doc, t.workspace.document? g = some doc → ∀ connection, connection ∈ doc.connections ↔
        ∃ e edge, t.workspace.layout.EdgeIn g e ∧ t.workspace.edge? e = some edge ∧
          connection = ⟨t.workspace.nodeName edge.source, t.workspace.nodeName edge.target,
            edge.attrs⟩ := by
  have hw := (tended_of_reachable (hs.trans h)).wellFormed
  refine ⟨fun e he => ?_, fun doc hdoc connection => ?_⟩
  · obtain ⟨edge, hedge, hsource, htarget⟩ := Workspace.exists_ends hw he
    exact ⟨edge, hedge, end_kept hs h hsource, end_kept hs h htarget⟩
  · rw [Workspace.mem_connections_iff hw hdoc]
    constructor
    · rintro ⟨e, he, hst⟩
      obtain ⟨edge, hedge, rfl⟩ := Option.map_eq_some_iff.mp hst
      exact ⟨e, edge, he, hedge, rfl⟩
    · rintro ⟨e, edge, he, hedge, rfl⟩
      exact ⟨e, he, by rw [Workspace.edgeStatement, hedge]; rfl⟩

theorem furnished_ends_kept :
    Reachable populated ∧ Relation.ReflTransGen Step populated furnished ∧
      furnished.workspace.layout.EdgeIn ⟨0⟩ ⟨0⟩ ∧ populated.workspace.layout.NodeIn ⟨0⟩ ⟨0⟩ ∧
      EndKept ⟨0⟩ ⟨0⟩ populated furnished ∧ EndKept ⟨0⟩ ⟨1⟩ populated furnished := by
  have hs := Orderly.reachable populated_orderly
  have hst : Relation.ReflTransGen Step populated furnished :=
    .single (.operation (.edge (.plain ⟨0⟩ ⟨1⟩)) edge_known_populated)
  have hin : ∀ s : Session, (s.workspace.layout.contents (.graph ⟨0⟩)).subgraphs = [⟨0⟩] →
      s.workspace.layout.Within (.graph ⟨0⟩) (.subgraph ⟨0⟩) := by
    intro s hs
    exact .single ⟨⟨0⟩, rfl, by rw [hs]; exact List.mem_singleton_self _⟩
  have he : furnished.workspace.layout.EdgeIn ⟨0⟩ ⟨0⟩ :=
    ⟨.subgraph ⟨0⟩, hin furnished rfl, List.mem_singleton_self _⟩
  obtain ⟨edge, hedge, hsource, htarget⟩ := (ends_kept hs hst ⟨0⟩).1 ⟨0⟩ he
  cases hedge
  exact ⟨hs, hst, he, ⟨.subgraph ⟨0⟩, hin populated rfl, List.mem_cons_self⟩, hsource, htarget⟩

/-- The nodes were made before the graph was open, the edge thereafter. -/
def stray : Session :=
  ((((start.perform (.node (.named "a"))).perform (.node (.named "b"))).perform
    (.graph (.plain "g"))).opened (.graph ⟨0⟩)).perform (.edge (.plain ⟨0⟩ ⟨1⟩))

theorem stray_dangles :
    Reachable stray ∧ ∃ edge doc, stray.workspace.layout.EdgeIn ⟨0⟩ ⟨0⟩ ∧
      stray.workspace.edge? ⟨0⟩ = some edge ∧
      ¬ stray.workspace.layout.NodeIn ⟨0⟩ edge.source ∧
      ¬ stray.workspace.layout.NodeIn ⟨0⟩ edge.target ∧
      stray.workspace.document? ⟨0⟩ = some doc ∧ doc.declared = [] ∧
      doc.connections = [⟨"a", "b", .empty⟩] := by
  have hnodes : Reachable ((start.perform (.node (.named "a"))).perform (.node (.named "b"))) :=
    (Relation.ReflTransGen.single (.operation (.node (.named "a")) trivial)).tail
      (.operation (.node (.named "b")) trivial)
  have hgraph := hnodes.tail (.operation (.graph (.plain "g")) trivial)
  have hk : (Opening.graph ⟨0⟩).Known (((start.perform (.node (.named "a"))).perform
      (.node (.named "b"))).perform (.graph (.plain "g"))).workspace := Nat.zero_lt_one
  have hopen := hgraph.tail (.opened (opens_opened hk fun _ => rfl))
  have hs : Reachable stray :=
    hopen.tail (.operation (.edge (.plain ⟨0⟩ ⟨1⟩)) ⟨Nat.zero_lt_two, Nat.one_lt_two⟩)
  have hw := (tended_of_reachable hs).wellFormed
  -- The document would declare a node of its tree.
  have hout : ∀ n statement, stray.workspace.nodeStatement n = some statement →
      ¬ stray.workspace.layout.NodeIn ⟨0⟩ n := by
    intro n statement hst hn
    have hdeclared := (Workspace.mem_declared_iff hw rfl).mpr ⟨n, hn, hst⟩
    cases hdeclared
  exact ⟨hs, _, _, ⟨.graph ⟨0⟩, .refl, List.mem_singleton_self _⟩, rfl, hout _ _ rfl,
    hout _ _ rfl, rfl, rfl, rfl⟩

end Session

end DotDiagram
