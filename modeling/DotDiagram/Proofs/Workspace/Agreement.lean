import DotDiagram.Proofs.Workspace.Orderly

/-! Ledgers, trees and lookups. A lookup in a graph goes through all of its tree. In
orderly sessions the three agree: a name is refused while a graph is open just when a
lookup finds it, and a pair is left out just when some edge of the tree connects it. -/

namespace DotDiagram

namespace Workspace

variable {w : Workspace} {g : GraphId} {name : String} {n : NodeId}

theorem contents_subgraph {s : SubgraphId} {subgraph : Subgraph}
    (h : w.subgraph? s = some subgraph) :
    w.layout.contents (.subgraph s) = subgraph.contents := by
  simp [layout, h]

theorem contents_subgraph_of_none {s : SubgraphId} (h : w.subgraph? s = none) :
    w.layout.contents (.subgraph s) = .empty := by
  simp [layout, h]

theorem contents_graph {graph : Graph} (h : w.graph? g = some graph) :
    w.layout.contents (.graph g) = graph.contents := by
  simp [layout, h]

theorem contents_graph_of_none (h : w.graph? g = none) :
    w.layout.contents (.graph g) = .empty := by
  simp [layout, h]

theorem not_mem_of_empty {c d : Container} (h : w.layout.contents c = .empty)
    (hd : w.layout.Within c d) : n ∉ (w.layout.contents d).nodes := by
  intro hn
  rcases Relation.ReflTransGen.cases_head hd with rfl | ⟨-, ⟨s, -, hs⟩, -⟩
  · rw [h] at hn
    cases hn
  · rw [h] at hs
    cases hs

theorem keys_subgraph (hw : w.layout.WellFormed) {s : SubgraphId} {subgraph : Subgraph}
    (h : w.subgraph? s = some subgraph) :
    subgraph.nodes.keys = subgraph.nodes.values.map w.layout.nodeName := by
  have hnamed := hw.named s
  rw [contents_subgraph h] at hnamed
  have hkeys : w.layout.keys (.subgraph s) = subgraph.nodes.keys := by simp [layout, h]
  rw [← hkeys, hnamed]
  rfl

theorem findWithin_sound (hw : w.layout.WellFormed) {fuel : Nat} {s : SubgraphId}
    (h : w.findWithin name fuel s = some n) :
    w.layout.nodeName n = name ∧
      ∃ c, w.layout.Within (.subgraph s) c ∧ n ∈ (w.layout.contents c).nodes := by
  induction fuel generalizing s with
  | zero => cases h
  | succ fuel ih =>
    unfold findWithin at h
    cases hs : w.subgraph? s with
    | none => simp [hs] at h
    | some subgraph =>
      simp only [hs] at h
      rcases Option.or_eq_some_iff.mp h with hget | ⟨-, hfind⟩
      · obtain ⟨hn, hname⟩ := Keyed.mem_values_of_get? (keys_subgraph hw hs) hget
        refine ⟨hname, .subgraph s, .refl, ?_⟩
        rw [contents_subgraph hs]
        exact hn
      · obtain ⟨s', hs', hfound⟩ := List.exists_of_findSome?_eq_some hfind
        obtain ⟨hname, c, hc, hn⟩ := ih hfound
        have hchild : w.layout.Child (.subgraph s) (.subgraph s') := by
          refine ⟨s', rfl, ?_⟩
          rw [contents_subgraph hs]
          exact hs'
        exact ⟨hname, c, .head hchild hc, hn⟩

/-- Subgraphs stand in ones made before them, so the fuel lasts to the bottom of the tree. -/
theorem findWithin_isSome (hw : w.layout.WellFormed) {fuel : Nat} {s : SubgraphId}
    (hfuel : w.subgraphs.size ≤ fuel + s.index) {c : Container}
    (hc : w.layout.Within (.subgraph s) c) (hn : n ∈ (w.layout.contents c).nodes) :
    (w.findWithin (w.layout.nodeName n) fuel s).isSome = true := by
  induction fuel generalizing s with
  | zero =>
    -- Fuel runs out only past the last subgraph there is.
    have hnone : w.subgraph? s = none := Array.getElem?_eq_none (by omega)
    exact absurd hn (not_mem_of_empty (contents_subgraph_of_none hnone) hc)
  | succ fuel ih =>
    unfold findWithin
    cases hs : w.subgraph? s with
    | none => exact absurd hn (not_mem_of_empty (contents_subgraph_of_none hs) hc)
    | some subgraph =>
      simp only [Option.isSome_or, Bool.or_eq_true]
      rcases Relation.ReflTransGen.cases_head hc with rfl | ⟨d, ⟨s', rfl, hs'⟩, hd⟩
      · refine .inl ((Keyed.isSome_get? _ _).mpr ?_)
        rw [contents_subgraph hs] at hn
        rw [keys_subgraph hw hs]
        exact List.mem_map_of_mem hn
      · have hlater := hw.childLater s s' hs'
        rw [contents_subgraph hs] at hs'
        refine .inr (List.findSome?_isSome_iff.mpr ⟨s', hs', ih ?_ hd⟩)
        omega

theorem findInGraph_sound (hw : w.layout.WellFormed) (h : w.findInGraph g name = some n) :
    w.layout.NodeIn g n ∧ w.layout.nodeName n = name := by
  unfold findInGraph at h
  cases hg : w.graph? g with
  | none => simp [hg] at h
  | some graph =>
    have hcontents := contents_graph hg
    simp only [hg] at h
    rcases Option.or_eq_some_iff.mp h with hfind | ⟨-, hfind⟩
    · have hname := List.find?_some hfind
      rw [beq_iff_eq, ← nodeName_layout] at hname
      refine ⟨⟨.graph g, .refl, ?_⟩, hname⟩
      rw [hcontents]
      exact List.mem_of_find?_eq_some hfind
    · obtain ⟨s, hs, hfound⟩ := List.exists_of_findSome?_eq_some hfind
      obtain ⟨hname, c, hc, hn⟩ := findWithin_sound hw hfound
      have hchild : w.layout.Child (.graph g) (.subgraph s) := by
        refine ⟨s, rfl, ?_⟩
        rw [hcontents]
        exact hs
      exact ⟨⟨c, .head hchild hc, hn⟩, hname⟩

theorem findInGraph_isSome (hw : w.layout.WellFormed) (hn : w.layout.NodeIn g n) :
    (w.findInGraph g (w.layout.nodeName n)).isSome = true := by
  obtain ⟨c, hc, hn⟩ := hn
  unfold findInGraph
  cases hg : w.graph? g with
  | none => exact absurd hn (not_mem_of_empty (contents_graph_of_none hg) hc)
  | some graph =>
    have hcontents := contents_graph hg
    simp only [Option.isSome_or, Bool.or_eq_true]
    rcases Relation.ReflTransGen.cases_head hc with rfl | ⟨d, ⟨s, rfl, hs⟩, hd⟩
    · rw [hcontents] at hn
      refine .inl (List.find?_isSome.mpr ⟨n, hn, ?_⟩)
      rw [beq_iff_eq, nodeName_layout]
    · rw [hcontents] at hs
      exact .inr (List.findSome?_isSome_iff.mpr
        ⟨s, hs, findWithin_isSome hw (Nat.le_add_right _ _) hd hn⟩)

theorem exists_directAttrs {spec : NodeSpec} (h : spec.html = none ∨ spec.markdown = none) :
    ∃ direct, spec.directAttrs = .ok direct := by
  unfold NodeSpec.directAttrs
  rcases h with h | h
  · rw [h]
    cases spec.markdown <;> exact ⟨_, rfl⟩
  · rw [h]
    cases spec.html <;> exact ⟨_, rfl⟩

/-- With at most one source of a label only a name that is taken is refused. -/
theorem buildNode_fst {spec : NodeSpec} (h : spec.html = none ∨ spec.markdown = none) :
    (w.buildNode spec).1 =
      if (w.takeName spec.name).2.nameTaken (w.takeName spec.name).1 then
        .error (.duplicateNode (w.takeName spec.name).1)
      else .ok ⟨w.nodes.size⟩ := by
  obtain ⟨direct, hd⟩ := exists_directAttrs h
  have hsize : (w.takeName spec.name).2.nodes.size = w.nodes.size := by
    rw [nodes_takeName]
  simp only [buildNode, hd, hsize]
  split <;> rfl

/-- What a graph claims stands in its tree, and is found there. While it is open it refuses
just the names that it finds, and leaves out just the pairs that it has, whichever subgraph
holds them. -/
structure Agrees (w : Workspace) (g : GraphId) (graph : Graph) : Prop where
  names : ∀ name, name ∈ graph.claimedNodes ↔ ∃ n, w.layout.NodeIn g n ∧ w.nodeName n = name
  pairs : ∀ pair, pair ∈ graph.claimedEdges ↔
    ∃ e, w.layout.EdgeIn g e ∧ w.edgeKeyOf? e = some pair
  found : ∀ name n, w.findInGraph g name = some n ↔
    w.layout.NodeIn g n ∧ w.nodeName n = name
  refused : w.ambient.graph? = some g →
    ∀ spec : NodeSpec, spec.html = none ∨ spec.markdown = none →
      ((w.buildNode spec).1 = .error (.duplicateNode (w.takeName spec.name).1) ↔
        (w.findInGraph g (w.takeName spec.name).1).isSome = true)
  leftOut : w.ambient.graph? = some g → ∀ spec : EdgeSpec,
    (((w.buildEdge spec).2.edge? (w.buildEdge spec).1).map Edge.attached = some false ↔
      ∃ e, w.layout.EdgeIn g e ∧
        w.edgeKeyOf? e = some (w.nodeName spec.source, w.nodeName spec.target))

namespace Settled

variable {entries : List Entered} {graph : Graph}

theorem findInGraph_eq_some_iff (h : w.Settled entries) :
    w.findInGraph g name = some n ↔ w.layout.NodeIn g n ∧ w.nodeName n = name := by
  simp only [← nodeName_layout]
  constructor
  · exact findInGraph_sound h.wellFormed
  · rintro ⟨hn, hname⟩
    obtain ⟨m, hm⟩ := Option.isSome_iff_exists.mp (findInGraph_isSome h.wellFormed hn)
    rw [hname] at hm
    obtain ⟨hin, hsame⟩ := findInGraph_sound h.wellFormed hm
    rwa [h.ledgered.distinct g m n hin hn (hsame.trans hname.symm)] at hm

theorem mem_claimedNodes_iff (h : w.Settled entries) (hg : w.graph? g = some graph)
    (name : String) :
    name ∈ graph.claimedNodes ↔ ∃ n, w.layout.NodeIn g n ∧ w.nodeName n = name := by
  have hclaims : (w.layout.claims g).names = graph.claimedNodes := by
    simp [layout, hg, Graph.claims]
  have hn := h.ledgered.names g name
  simpa only [nodeName_layout, hclaims] using hn

theorem mem_claimedEdges_iff (h : w.Settled entries) (hg : w.graph? g = some graph)
    (pair : String × String) :
    pair ∈ graph.claimedEdges ↔ ∃ e, w.layout.EdgeIn g e ∧ w.edgeKeyOf? e = some pair := by
  have hclaims : (w.layout.claims g).pairs = graph.claimedEdges := by
    simp [layout, hg, Graph.claims]
  have he := h.ledgered.pairs g pair
  simpa only [edgeKey?_layout, hclaims] using he

theorem refused_iff (h : w.Settled entries) (hg : w.ambient.graph? = some g) {spec : NodeSpec}
    (hspec : spec.html = none ∨ spec.markdown = none) :
    (w.buildNode spec).1 = .error (.duplicateNode (w.takeName spec.name).1) ↔
      (w.findInGraph g (w.takeName spec.name).1).isSome = true := by
  have hopen : (w.takeName spec.name).2.ambient.graph? = some g := by rwa [ambient_takeName]
  have htaken := nameTaken_of_graph hopen (w.takeName spec.name).1
  have hfound : (w.findInGraph g (w.takeName spec.name).1).isSome = true ↔
      (w.takeName spec.name).2.nameTaken (w.takeName spec.name).1 = true := by
    rw [htaken, layout_takeName, h.ledgered.names g]
    simp only [Option.isSome_iff_exists, h.findInGraph_eq_some_iff, nodeName_layout]
  rw [hfound, buildNode_fst hspec]
  split
  · next ht => simp [ht]
  · next ht => simp [ht]

theorem leftOut_iff (h : w.Settled entries) (hg : w.ambient.graph? = some g) (spec : EdgeSpec) :
    ((w.buildEdge spec).2.edge? (w.buildEdge spec).1).map Edge.attached = some false ↔
      ∃ e, w.layout.EdgeIn g e ∧
        w.edgeKeyOf? e = some (w.nodeName spec.source, w.nodeName spec.target) := by
  have hreceives : w.containerOpen = true := by simp [containerOpen, hg]
  have htaken := pairTaken_of_graph hg (w.nodeName spec.source, w.nodeName spec.target)
  rw [h.ledgered.pairs g] at htaken
  simp only [edgeKey?_layout] at htaken
  rw [attached_buildEdge h.anchored, hreceives, ← htaken]
  simp

end Settled

end Workspace

/-- No two places in the tree of a graph have nodes of the same name. -/
def Layout.NamesDistinct (l : Layout) (g : GraphId) : Prop :=
  ∀ (c d : Container) (i j : Nat) (n m : NodeId), l.Within (.graph g) c → l.Within (.graph g) d →
    (l.contents c).nodes[i]? = some n → (l.contents d).nodes[j]? = some m →
      l.nodeName n = l.nodeName m → c = d ∧ i = j

namespace Session

variable {s : Session} {g : GraphId}

theorem ledgers_agree (hs : Orderly s) {graph : Graph} (hg : s.workspace.graph? g = some graph) :
    s.workspace.Agrees g graph := by
  have h := settled_of_orderly hs
  exact ⟨h.mem_claimedNodes_iff hg, h.mem_claimedEdges_iff hg,
    fun _ _ => h.findInGraph_eq_some_iff, fun hopen _ hspec => h.refused_iff hopen hspec,
    fun hopen spec => h.leftOut_iff hopen spec⟩

theorem furnished_agrees :
    Orderly furnished ∧ furnished.workspace.ambient.graph? = some ⟨0⟩ ∧
      ∃ graph, furnished.workspace.graph? ⟨0⟩ = some graph ∧ graph.claimedNodes = ["b", "a"] ∧
        furnished.workspace.Agrees ⟨0⟩ graph :=
  ⟨furnished_orderly, rfl, _, rfl, rfl, ledgers_agree furnished_orderly rfl⟩

theorem names_distinct (hs : Orderly s) (g : GraphId) :
    s.workspace.layout.NamesDistinct g := by
  intro c d i j n m hc hd hn hm hname
  have h := settled_of_orderly hs
  have hcn : s.workspace.layout.NodeIn g n := ⟨c, hc, List.mem_of_getElem? hn⟩
  have hdm : s.workspace.layout.NodeIn g m := ⟨d, hd, List.mem_of_getElem? hm⟩
  have heq := h.ledgered.distinct g n m hcn hdm hname
  exact h.wellFormed.nodesOnce c d i j n hn (heq ▸ hm)

theorem furnished_distinct :
    Orderly furnished ∧
      (furnished.workspace.layout.contents (.subgraph ⟨0⟩)).nodes = [⟨0⟩, ⟨1⟩] ∧
      furnished.workspace.layout.NamesDistinct ⟨0⟩ :=
  ⟨furnished_orderly, rfl, names_distinct furnished_orderly ⟨0⟩⟩

/-- The graph does not know of the node that its subgraph got without it. -/
def doubled : Session := reopened.perform (.node (.named "a"))

theorem doubled_not_distinct :
    Reachable doubled ∧ ¬ doubled.workspace.layout.NamesDistinct ⟨0⟩ := by
  refine ⟨reopened_reachable.tail (.operation _ trivial), fun h => ?_⟩
  have hin : doubled.workspace.layout.Within (.graph ⟨0⟩) (.subgraph ⟨0⟩) :=
    .single ⟨⟨0⟩, rfl, List.mem_singleton_self _⟩
  have hsame := (h (.graph ⟨0⟩) (.subgraph ⟨0⟩) 0 0 ⟨1⟩ ⟨0⟩ .refl hin rfl rfl rfl).1
  cases hsame

end Session

end DotDiagram
