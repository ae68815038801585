import DotDiagram.Proofs.Workspace.Constructions

/-! Relations of a workspace to a later one that all making respects. Whatever is made comes
down to a few kinds of changes. So a relation that goes on from change to change holds across
all that is made if it holds across each of these. -/

namespace DotDiagram

/-- What a graph says of itself, whatever is made in it. -/
def Graph.heading (g : Graph) : GraphKind × String × Option Theme × AttrSet :=
  (g.kind, g.name, g.theme, g.attrs)

def Subgraph.heading (s : Subgraph) : Bool × String × Option Theme × AttrSet :=
  (s.cluster, s.name, s.theme, s.attrs)

section

variable {α β : Type} (xs : Array α) {tag : α → β} {b : β}

theorem map_getElem?_modify (i j : Nat) {f : α → α} (hf : ∀ x, tag (f x) = tag x) :
    ((xs.modify i f)[j]?).map tag = (xs[j]?).map tag := by
  rw [Array.getElem?_modify]
  split
  · rw [Option.map_map, show tag ∘ f = tag from funext hf]
  · rfl

theorem map_getElem?_push (x : α) {i : Nat} (h : (xs[i]?).map tag = some b) :
    ((xs.push x)[i]?).map tag = some b := by
  obtain ⟨a, ha, rfl⟩ := Option.map_eq_some_iff.mp h
  rw [Array.getElem?_push_lt (Array.getElem?_eq_some_iff.mp ha).1, ← Array.getElem?_eq_getElem, ha]
  rfl

end

/-- The other operations restyle what there is. -/
def Operation.Makes : Operation → Prop
  | .graph _ | .subgraph _ | .node _ | .edge _ | .relate _ _ _ _ | .connect _ _
  | .connectAll _ _ | .template _ | .classDiagram _ | .classGraph _ _ | .mindMap _ => True
  | .setNode _ _ _ | .updateNode _ _ | .setEdge _ _ _ | .updateEdge _ _ | .setChain _ _ _
  | .updateChain _ _ | .setSubgraph _ _ _ | .setGraph _ _ _ => False

namespace Workspace

structure Respected (R : Workspace → Workspace → Prop) : Prop where
  trans : ∀ {u v w : Workspace}, R u v → R v w → R u w
  same : ∀ {w w' : Workspace}, w'.nodes = w.nodes → w'.edges = w.edges →
    w'.subgraphs = w.subgraphs → w'.graphs = w.graphs → R w w'
  graph : ∀ (w : Workspace) (id : GraphId) {f : Graph → Graph},
    (∀ g, (f g).heading = g.heading) → R w (w.modifyGraph id f)
  subgraph : ∀ (w : Workspace) (id : SubgraphId) {f : Subgraph → Subgraph},
    (∀ s, (f s).heading = s.heading) → R w (w.modifySubgraph id f)
  pushNode : ∀ (w : Workspace) (node : Node), R w { w with nodes := w.nodes.push node }
  pushEdge : ∀ (w : Workspace) (edge : Edge), R w { w with edges := w.edges.push edge }
  pushSubgraph : ∀ (w : Workspace) (s : Subgraph), R w { w with subgraphs := w.subgraphs.push s }
  pushGraph : ∀ (w : Workspace) (g : Graph), R w { w with graphs := w.graphs.push g }

/-- Changes that name no node. -/
structure WeaklyRespected (R : Workspace → Workspace → Prop) : Prop where
  trans : ∀ {u v w : Workspace}, R u v → R v w → R u w
  same : ∀ {w w' : Workspace}, w'.nodes = w.nodes → w'.edges = w.edges →
    w'.subgraphs = w.subgraphs → w'.graphs = w.graphs → w'.nodeNumber = w.nodeNumber → R w w'
  graph : ∀ (w : Workspace) (id : GraphId) {f : Graph → Graph},
    (∀ g, (f g).heading = g.heading) → (∀ g, (f g).claimedNodes = g.claimedNodes) →
      R w (w.modifyGraph id f)
  subgraph : ∀ (w : Workspace) (id : SubgraphId) {f : Subgraph → Subgraph},
    (∀ s, (f s).heading = s.heading) → R w (w.modifySubgraph id f)
  pushEdge : ∀ (w : Workspace) (edge : Edge), R w { w with edges := w.edges.push edge }
  pushSubgraph : ∀ (w : Workspace) (s : Subgraph), R w { w with subgraphs := w.subgraphs.push s }
  pushGraph : ∀ (w : Workspace) (g : Graph), g.claimedNodes = [] →
    R w { w with graphs := w.graphs.push g }

theorem Respected.weakly {R : Workspace → Workspace → Prop} (h : Respected R) :
    WeaklyRespected R where
  trans := h.trans
  same hnodes hedges hsubgraphs hgraphs _ := h.same hnodes hedges hsubgraphs hgraphs
  graph w id _ hf _ := h.graph w id hf
  subgraph := h.subgraph
  pushEdge := h.pushEdge
  pushSubgraph := h.pushSubgraph
  pushGraph w g _ := h.pushGraph w g

namespace WeaklyRespected

variable {R : Workspace → Workspace → Prop} (h : WeaklyRespected R)
include h

theorem refl (w : Workspace) : R w w := h.same rfl rfl rfl rfl rfl

theorem withAmbient (w : Workspace) (ambient : Ambient) : R w { w with ambient } :=
  h.same rfl rfl rfl rfl rfl

theorem claimPair (w : Workspace) (pair : String × String) : R w (w.claimPair pair) := by
  unfold Workspace.claimPair
  split
  · exact h.graph w _ (fun _ => rfl) fun _ => rfl
  · exact h.refl w

theorem listNode (w : Workspace) (id : NodeId) (name : String) : R w (w.listNode id name) := by
  unfold Workspace.listNode
  split
  · exact h.subgraph w _ fun _ => rfl
  · exact h.graph w _ (fun _ => rfl) fun _ => rfl
  · exact h.refl w

theorem listEdge (w : Workspace) (id : EdgeId) : R w (w.listEdge id) := by
  unfold Workspace.listEdge
  split
  · exact h.subgraph w _ fun _ => rfl
  · exact h.graph w _ (fun _ => rfl) fun _ => rfl
  · exact h.refl w

theorem listSubgraph (w : Workspace) (id : SubgraphId) : R w (w.listSubgraph id) := by
  unfold Workspace.listSubgraph
  split
  · exact h.subgraph w _ fun _ => rfl
  · exact h.graph w _ (fun _ => rfl) fun _ => rfl
  · exact h.refl w

theorem buildEdge (w : Workspace) (spec : EdgeSpec) : R w (w.buildEdge spec).2 := by
  simp only [Workspace.buildEdge]
  split
  · exact h.trans (h.trans (h.pushEdge w _) (h.claimPair _ _)) (h.listEdge _ _)
  · exact h.pushEdge w _

theorem buildSubgraph (w : Workspace) (spec : SubgraphSpec) : R w (w.buildSubgraph spec).2 :=
  h.trans (h.pushSubgraph _ _) (h.listSubgraph _ _)

theorem buildGraph (w : Workspace) (spec : GraphSpec) : R w (w.buildGraph spec).2 :=
  h.pushGraph w _ rfl

theorem leave (w : Workspace) (scope : Scope) : R w (w.leave scope).2 := by
  unfold Workspace.leave
  cases scope.theme <;> exact h.withAmbient w _

theorem foldl (f : Workspace → EdgeId → Workspace) (hf : ∀ w id, R w (f w id))
    (edges : List EdgeId) (w : Workspace) : R w (edges.foldl f w) := by
  induction edges generalizing w with
  | nil => exact h.refl w
  | cons id edges ih => exact h.trans (hf w id) (ih _)

theorem fanEdges (source : NodeId) (targets : List NodeId) (w : Workspace) :
    R w (Chain.fanEdges source targets w).2 := by
  induction targets generalizing w with
  | nil => exact h.refl w
  | cons target rest ih => exact h.trans (h.buildEdge w _) (ih _)

end WeaklyRespected

namespace Respected

variable {R : Workspace → Workspace → Prop} (h : Respected R) {w w' : Workspace}
include h

theorem claimName (w : Workspace) (name : String) : R w (w.claimName name) := by
  unfold Workspace.claimName
  split
  · exact h.graph w _ fun _ => rfl
  · exact h.weakly.refl w

theorem buildNode (w : Workspace) (spec : NodeSpec) : R w (w.buildNode spec).2 := by
  unfold Workspace.buildNode
  cases spec.directAttrs with
  | error e => exact h.weakly.refl w
  | ok direct =>
    have hnamed : R w (w.takeName spec.name).2 := by
      cases spec.name <;> exact h.same rfl rfl rfl rfl
    simp only
    split
    · exact hnamed
    · exact h.trans (h.trans (h.trans hnamed (h.pushNode _ _)) (h.claimName _ _))
        (h.weakly.listNode _ _ _)

theorem drawing (hd : Drawing w w') : R w w' := by
  have hlasting : Lasting (R w) :=
    ⟨fun spec hr => h.trans hr (h.buildNode _ spec),
      fun spec hr => h.trans hr (h.weakly.buildEdge _ spec)⟩
  exact hlasting.drawing (h.weakly.refl w) hd

theorem template (w : Workspace) (t : Template) : R w (t.build w).2 := by
  cases hclash : Template.firstClash w [] t.names with
  | some name =>
    rw [Template.build_of_clash hclash]
    exact h.weakly.refl w
  | none =>
    cases hwrapper : t.wrapper with
    | none =>
      rw [Template.build_of_bare hclash hwrapper]
      exact h.drawing (w.drawing_buildNodes t.factories .empty)
    | some name =>
      have hwrapped : R w (t.wrapped name w) :=
        h.trans (h.weakly.buildSubgraph w (t.wrapperSpec name)) (h.weakly.withAmbient _ _)
      rw [Template.build_of_wrapper hclash hwrapper]
      exact h.trans (h.trans hwrapped (h.drawing (drawing_buildNodes _ t.factories .empty)))
        (h.weakly.leave _ _)

theorem buildClassGraph (w : Workspace) (diagram : ClassDiagram) (options : ClassGraphOptions) :
    R w (w.buildClassGraph diagram options).2 := by
  have hmade := h.weakly.buildGraph w options.spec
  unfold Workspace.buildClassGraph
  cases hg : (w.buildGraph options.spec).2.ambient.graph? with
  | some outer =>
    simp only [enterGraph_eq_of_some (w.buildGraph options.spec).1 hg]
    exact hmade
  | none =>
    simp only [enterGraph_eq_of_none (w.buildGraph options.spec).1 hg]
    exact h.trans (h.trans (h.trans hmade (h.weakly.withAmbient _ _))
      (h.drawing (drawing_buildClassDiagram _ diagram))) (h.weakly.leave _ _)

theorem perform {op : Operation} (known : op.Known w) (makes : op.Makes) : R w (w.perform op) := by
  cases op with
  | graph spec => exact h.weakly.buildGraph w spec
  | subgraph spec => exact h.weakly.buildSubgraph w spec
  | node spec => exact h.buildNode w spec
  | edge spec => exact h.weakly.buildEdge w spec
  | relate source target kind label => exact h.weakly.buildEdge w _
  | connect target chain => exact h.weakly.buildEdge w _
  | connectAll targets chain => exact h.drawing (drawing_fanEdges known.2.1 known.1)
  | template t => exact h.template w t
  | classDiagram diagram => exact h.drawing (w.drawing_buildClassDiagram diagram)
  | classGraph diagram options => exact h.buildClassGraph w diagram options
  | mindMap outline => exact h.drawing (w.drawing_buildMindMap outline)
  | _ => exact makes.elim

end Respected

end Workspace

end DotDiagram
