import DotDiagram.Proofs.Workspace.Endpoints
import DotDiagram.Proofs.Workspace.FirstWins
import DotDiagram.Proofs.Workspace.Respect

/-! Appearance. What a thing looks like is settled when it is made: making other things, and
opening and closing scopes, leaves it alone, and to restyle it changes only that one thing.
A document whose tree does not list the thing reads the same afterwards. -/

namespace DotDiagram

theorem Layout.WellFormed.has_of_within {l : Layout} (h : l.WellFormed) {c d : Container}
    (hc : l.Has c) (hd : l.Within c d) : l.Has d := by
  rcases Relation.ReflTransGen.cases_tail hd with rfl | ⟨p, -, s, rfl, hs⟩
  · exact hc
  · exact h.childKnown p s hs

namespace Workspace

variable {w w' w'' : Workspace} {g : GraphId}

/-- All that exists looks as it did; only what containers list may differ. -/
structure KeepsLooks (w w' : Workspace) : Prop where
  nodes : ∀ n, w.HasNode n → w'.node? n = w.node? n
  edges : ∀ e, w.HasEdge e → w'.edge? e = w.edge? e
  titles : ∀ c, w.layout.Has c → w'.title? c = w.title? c

theorem hasNode_iff {n : NodeId} : w.HasNode n ↔ (w.node? n).isSome = true := by
  simp [HasNode, node?]

theorem hasEdge_iff {e : EdgeId} : w.HasEdge e ↔ (w.edge? e).isSome = true := by
  simp [HasEdge, edge?]

theorem has_layout_iff {c : Container} : w.layout.Has c ↔ (w.title? c).isSome = true := by
  cases c <;> simp [Layout.Has, layout, title?, graph?, subgraph?]

namespace KeepsLooks

theorem of_arrays (hn : w'.nodes = w.nodes) (he : w'.edges = w.edges)
    (ht : ∀ c, w'.title? c = w.title? c) : KeepsLooks w w' :=
  ⟨fun n _ => by rw [node?, hn, node?], fun e _ => by rw [edge?, he, edge?], fun c _ => ht c⟩

theorem trans (h : KeepsLooks w w') (h' : KeepsLooks w' w'') : KeepsLooks w w'' := by
  refine ⟨fun n hn => ?_, fun e he => ?_, fun c hc => ?_⟩
  · have hn' : w'.HasNode n := by rwa [hasNode_iff, h.nodes n hn, ← hasNode_iff]
    rw [h'.nodes n hn', h.nodes n hn]
  · have he' : w'.HasEdge e := by rwa [hasEdge_iff, h.edges e he, ← hasEdge_iff]
    rw [h'.edges e he', h.edges e he]
  · have hc' : w'.layout.Has c := by rwa [has_layout_iff, h.titles c hc, ← has_layout_iff]
    rw [h'.titles c hc', h.titles c hc]

theorem modifyGraph (id : GraphId) {f : Graph → Graph}
    (hf : ∀ g, ((f g).kind, (f g).name, (f g).attrs) = (g.kind, g.name, g.attrs)) :
    KeepsLooks w (w.modifyGraph id f) := by
  refine .of_arrays rfl rfl fun c => ?_
  cases c with
  | subgraph s => rfl
  | graph g =>
    refine map_getElem?_modify w.graphs id.index g.index fun graph => ?_
    exact congrArg (fun (kind, name, attrs) => (some kind, name, attrs)) (hf graph)

theorem modifySubgraph (id : SubgraphId) {f : Subgraph → Subgraph}
    (hf : ∀ s, ((f s).name, (f s).attrs) = (s.name, s.attrs)) :
    KeepsLooks w (w.modifySubgraph id f) := by
  refine .of_arrays rfl rfl fun c => ?_
  cases c with
  | graph g => rfl
  | subgraph s =>
    refine map_getElem?_modify w.subgraphs id.index s.index fun subgraph => ?_
    exact congrArg (fun (name, attrs) => (none, name, attrs)) (hf subgraph)

theorem pushNode (w : Workspace) (node : Node) :
    KeepsLooks w { w with nodes := w.nodes.push node } := by
  refine ⟨fun n hn => ?_, fun _ _ => rfl, fun c _ => by cases c <;> rfl⟩
  rw [HasNode] at hn
  simp [node?, Array.getElem?_push_lt, hn]

theorem pushEdge (w : Workspace) (edge : Edge) :
    KeepsLooks w { w with edges := w.edges.push edge } := by
  refine ⟨fun _ _ => rfl, fun e he => ?_, fun c _ => by cases c <;> rfl⟩
  rw [HasEdge] at he
  simp [edge?, Array.getElem?_push_lt, he]

theorem pushSubgraph (w : Workspace) (subgraph : Subgraph) :
    KeepsLooks w { w with subgraphs := w.subgraphs.push subgraph } := by
  refine ⟨fun _ _ => rfl, fun _ _ => rfl, fun c hc => ?_⟩
  cases c with
  | graph g => rfl
  | subgraph s =>
    have hlt : s.index < w.subgraphs.size := hc
    simp [title?, subgraph?, Array.getElem?_push_lt, hlt]

theorem pushGraph (w : Workspace) (graph : Graph) :
    KeepsLooks w { w with graphs := w.graphs.push graph } := by
  refine ⟨fun _ _ => rfl, fun _ _ => rfl, fun c hc => ?_⟩
  cases c with
  | subgraph s => rfl
  | graph g =>
    have hlt : g.index < w.graphs.size := hc
    simp [title?, graph?, Array.getElem?_push_lt, hlt]

theorem respected : Respected KeepsLooks where
  trans := trans
  same hn he hs hg := .of_arrays hn he fun c => by
    cases c with
    | graph g => rw [title?, graph?, hg, title?, graph?]
    | subgraph s => rw [title?, subgraph?, hs, title?, subgraph?]
  graph w id f hf := .modifyGraph id fun g => by
    have hg := hf g
    simp only [Graph.heading, Prod.mk.injEq] at hg
    simp [hg]
  subgraph w id f hf := .modifySubgraph id fun s => by
    have hs := hf s
    simp only [Subgraph.heading, Prod.mk.injEq] at hs
    simp [hs]
  pushNode := pushNode
  pushEdge := pushEdge
  pushSubgraph := pushSubgraph
  pushGraph := pushGraph

/-- A document changes no more than what its tree lists. -/
theorem dot? (h : KeepsLooks w w') (hw : w.layout.WellFormed) (hg : w.HasGraph g)
    (hsame : ∀ c, w.layout.Within (.graph g) c → w'.layout.contents c = w.layout.contents c) :
    w'.dot? g = w.dot? g := by
  have hhas : w.layout.Has (.graph g) := hg
  have hname : ∀ n, w.HasNode n → w'.nodeName n = w.nodeName n := by
    intro n hn
    rw [nodeName, h.nodes n hn, nodeName]
  refine ReadsAlike.dot? hw ⟨hsame, fun c hc => h.titles c (hw.has_of_within hhas hc), ?_, ?_⟩
  · intro c hc n hn
    have hlt := hw.node_known hn
    rw [length_nodes_layout] at hlt
    rw [nodeStatement, h.nodes n hlt, nodeStatement]
  · intro c hc e he
    obtain ⟨edge, hedge, hs, ht⟩ := exists_ends hw ⟨c, hc, he⟩
    have hlt := hw.edge_known he
    rw [length_edges_layout] at hlt
    simp only [edgeStatement, h.edges e hlt, hedge, Option.map_some, hname _ hs, hname _ ht]

end KeepsLooks

theorem node?_modifyNode_of_ne {n id : NodeId} (f : Node → Node) (h : n ≠ id) :
    (w.modifyNode id f).node? n = w.node? n := by
  have hne : id.index ≠ n.index := fun hi => h (congrArg NodeId.mk hi.symm)
  simp [node?, modifyNode, Array.getElem?_modify, hne]

section

variable (hw : w.layout.WellFormed)
include hw

theorem dot?_modifyNode {id : NodeId} (h : ¬ w.layout.NodeIn g id) {f : Node → Node}
    (hf : ∀ node, ((f node).name, (f node).attached) = (node.name, node.attached)) :
    (w.modifyNode id f).dot? g = w.dot? g := by
  have hl := layout_modifyNode (w := w) id f hf
  have hname : (w.modifyNode id f).nodeName = w.nodeName := by
    funext n
    rw [← nodeName_layout, hl, nodeName_layout]
  refine ReadsAlike.dot? hw ⟨fun _ _ => by rw [hl], fun c _ => by cases c <;> rfl, ?_, ?_⟩
  · intro c hc n hn
    have hne : n ≠ id := fun hi => h ⟨c, hc, hi ▸ hn⟩
    rw [nodeStatement, node?_modifyNode_of_ne f hne, nodeStatement]
  · intro c _ e _
    rw [edgeStatement, hname, edgeStatement]
    rfl

theorem dot?_modifyEdge {id : EdgeId} (h : ¬ w.layout.EdgeIn g id) {f : Edge → Edge}
    (hf : ∀ edge, ((f edge).source, (f edge).target, (f edge).attached) =
      (edge.source, edge.target, edge.attached)) :
    (w.modifyEdge id f).dot? g = w.dot? g := by
  have hl := layout_modifyEdge (w := w) id f hf
  refine ReadsAlike.dot? hw ⟨fun _ _ => by rw [hl], fun c _ => by cases c <;> rfl,
    fun _ _ _ _ => rfl, ?_⟩
  intro c hc e he
  have hne : e ≠ id := fun hi => h ⟨c, hc, hi ▸ he⟩
  rw [edgeStatement, edge?_modifyEdge_of_ne f hne, edgeStatement]
  rfl

theorem dot?_modifySubgraph {id : SubgraphId}
    (h : ¬ w.layout.Within (.graph g) (.subgraph id)) {f : Subgraph → Subgraph}
    (hc : ∀ s, (f s).contents = s.contents) (hk : ∀ s, (f s).nodes.keys = s.nodes.keys) :
    (w.modifySubgraph id f).dot? g = w.dot? g := by
  have hl := layout_modifySubgraph_same (w := w) id hc hk
  refine ReadsAlike.dot? hw ⟨fun _ _ => by rw [hl], fun c hin => ?_, fun _ _ _ _ => rfl,
    fun _ _ _ _ => rfl⟩
  cases c with
  | graph g' => rfl
  | subgraph s =>
    have hne : s ≠ id := fun he => h (he ▸ hin)
    rw [title?, subgraph?_modifySubgraph, if_neg hne, title?]

theorem dot?_modifyGraph {id : GraphId} (h : id ≠ g) {f : Graph → Graph}
    (hc : ∀ g, (f g).contents = g.contents) (hk : ∀ g, (f g).claims = g.claims) :
    (w.modifyGraph id f).dot? g = w.dot? g := by
  have hl := layout_modifyGraph_same (w := w) id hc hk
  refine ReadsAlike.dot? hw ⟨fun _ _ => by rw [hl], fun c hin => ?_, fun _ _ _ _ => rfl,
    fun _ _ _ _ => rfl⟩
  cases c with
  | subgraph s => rfl
  | graph g' =>
    cases hw.root_unique hin .refl
    rw [title?, graph?_modifyGraph_eq_ite, if_neg (Ne.symm h), title?]

/-- Many edges are restyled one after another. -/
theorem dot?_foldl {restyle : Workspace → EdgeId → Workspace}
    (hl : ∀ w e, (restyle w e).layout = w.layout)
    (hd : ∀ w e, w.layout.WellFormed → ¬ w.layout.EdgeIn g e → (restyle w e).dot? g = w.dot? g)
    {edges : List EdgeId} (h : ∀ e ∈ edges, ¬ w.layout.EdgeIn g e) :
    (edges.foldl restyle w).dot? g = w.dot? g := by
  induction edges generalizing w with
  | nil => rfl
  | cons e edges ih =>
    have hrest : ∀ e' ∈ edges, ¬ (restyle w e).layout.EdgeIn g e' := by
      rw [hl]
      exact fun e' he' => h e' (List.mem_cons_of_mem _ he')
    have hnext := ih ((hl w e).symm ▸ hw) hrest
    rw [List.foldl_cons, hnext, hd w e hw (h e List.mem_cons_self)]

end

end Workspace

end DotDiagram
