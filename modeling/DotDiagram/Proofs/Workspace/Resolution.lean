import DotDiagram.Proofs.Layers
import DotDiagram.Proofs.Workspace.Reception

/-! The attributes of what is built. Nodes and edges take theirs from the live styles of
their own kind, and from the innermost live theme. -/

namespace DotDiagram

section

variable (entries : List Entered)

def liveTheme? : Option Theme := (entries.filterMap fun e => e.opening.theme?).getLast?

def liveNodeLayers (explicit : List NodeStyle) (direct : AttrSet) : Layers .node where
  theme := (liveTheme? entries).map Theme.node
  ambient := entries.filterMap fun e => e.opening.nodeStyle?
  explicit := explicit
  direct := direct

def liveEdgeLayers (explicit : List EdgeStyle) (direct : AttrSet) : Layers .edge where
  theme := (liveTheme? entries).map Theme.edge
  ambient := entries.filterMap fun e => e.opening.edgeStyle?
  explicit := explicit
  direct := direct

end

theorem map_value_stackOf {α : Type} (pick : Opening → Option α) (entries : List Entered) :
    ((stackOf pick entries).map Entry.value).reverse =
      entries.filterMap fun e => pick e.opening := by
  rw [stackOf, List.map_reverse, List.reverse_reverse, List.map_filterMap]
  apply List.filterMap_congr
  intro e _
  cases hp : pick e.opening <;> simp [Entered.entry?, hp]

namespace Ambient.Holds

variable {a : Ambient} {entries : List Entered}

theorem theme?_eq (h : a.Holds entries) : a.theme? = liveTheme? entries := by
  rw [Ambient.theme?, h.themes, head?_stackOf, liveTheme?]

theorem nodeLayers_eq (h : a.Holds entries) (explicit : List NodeStyle) (direct : AttrSet) :
    a.nodeLayers explicit direct = liveNodeLayers entries explicit direct := by
  rw [Ambient.nodeLayers, h.theme?_eq, activeNodeStyles, h.nodeStyles, map_value_stackOf,
    liveNodeLayers]

theorem edgeLayers_eq (h : a.Holds entries) (explicit : List EdgeStyle) (direct : AttrSet) :
    a.edgeLayers explicit direct = liveEdgeLayers entries explicit direct := by
  rw [Ambient.edgeLayers, h.theme?_eq, activeEdgeStyles, h.edgeStyles, map_value_stackOf,
    liveEdgeLayers]

end Ambient.Holds

namespace Workspace

variable {w : Workspace}

/-- What a node that is built is made of. -/
theorem nodes_buildNode {spec : NodeSpec} {id : NodeId} (h : (w.buildNode spec).1 = .ok id) :
    id = ⟨w.nodes.size⟩ ∧ ∃ direct, spec.directAttrs = .ok direct ∧
      (w.buildNode spec).2.nodes = w.nodes.push ⟨(w.takeName spec.name).1,
        (w.ambient.nodeLayers spec.styles direct).resolve, w.containerOpen⟩ := by
  unfold buildNode at h ⊢
  cases hd : spec.directAttrs with
  | error e => simp [hd] at h
  | ok direct =>
    simp only [hd] at h ⊢
    split at h
    · cases h
    · next ht =>
      cases h
      have hopen : (w.takeName spec.name).2.containerOpen = w.containerOpen := by
        rw [containerOpen, ambient_takeName, containerOpen]
      exact ⟨by simp, direct, rfl, by simp [ht, hopen]⟩

theorem nodes_buildNode_of_error {spec : NodeSpec} {e : Error}
    (h : (w.buildNode spec).1 = .error e) : (w.buildNode spec).2.nodes = w.nodes := by
  unfold buildNode at h ⊢
  cases hd : spec.directAttrs with
  | error e => rfl
  | ok direct =>
    simp only [hd] at h ⊢
    split at h
    · next ht => simp [ht]
    · cases h

theorem node?_buildNode {spec : NodeSpec} {id : NodeId} (h : (w.buildNode spec).1 = .ok id) :
    ∃ direct, spec.directAttrs = .ok direct ∧
      (w.buildNode spec).2.node? id =
        some ⟨(w.takeName spec.name).1, (w.ambient.nodeLayers spec.styles direct).resolve,
          w.containerOpen⟩ := by
  obtain ⟨rfl, direct, hd, hn⟩ := nodes_buildNode h
  refine ⟨direct, hd, ?_⟩
  rw [node?, hn]
  exact Array.getElem?_push_size

theorem edge?_buildEdge (w : Workspace) (spec : EdgeSpec) :
    (w.buildEdge spec).2.edge? (w.buildEdge spec).1 =
      some ⟨spec.source, spec.target, (w.ambient.edgeLayers spec.styles spec.attrs).resolve,
        w.containerOpen && !w.pairTaken (w.nodeName spec.source, w.nodeName spec.target)⟩ := by
  rw [edge?, edges_buildEdge]
  exact Array.getElem?_push_size

/-- What is built takes its attributes from the layers that are live. -/
structure Resolves (w : Workspace) (entries : List Entered) : Prop where
  node : ∀ (spec : NodeSpec) (id : NodeId), (w.buildNode spec).1 = .ok id →
    ∃ direct node, spec.directAttrs = .ok direct ∧ (w.buildNode spec).2.node? id = some node ∧
      (liveNodeLayers entries spec.styles direct).Governs node.attrs
  edge : ∀ spec : EdgeSpec,
    ∃ edge, (w.buildEdge spec).2.edge? (w.buildEdge spec).1 = some edge ∧
      (liveEdgeLayers entries spec.styles spec.attrs).Governs edge.attrs

theorem resolves_of_holds {entries : List Entered} (h : w.ambient.Holds entries) :
    w.Resolves entries := by
  constructor
  · intro spec id hok
    obtain ⟨direct, hd, hn⟩ := node?_buildNode hok
    refine ⟨direct, _, hd, hn, ?_⟩
    rw [h.nodeLayers_eq]
    exact Layers.governs_resolve _
  · intro spec
    refine ⟨_, w.edge?_buildEdge spec, ?_⟩
    rw [h.edgeLayers_eq]
    exact Layers.governs_resolve _

end Workspace

namespace Session

/-- Whatever layers there are, they are resolved by the law. Those of a node or an edge are
the live ones, whatever else the workspace holds while it is built. -/
theorem attributes_resolved :
    (∀ (kind : ElementKind) (layers : Layers kind), layers.Governs layers.resolve) ∧
      ∀ (s : Session) (w : Workspace), Reachable s → w.ambient = s.workspace.ambient →
        w.Resolves s.entries := by
  refine ⟨fun _ layers => layers.governs_resolve, fun s w hs hw => ?_⟩
  apply Workspace.resolves_of_holds
  rw [hw]
  exact (Sound.of_reachable hs).ambient

/-- Two node styles are in force, besides an edge style and the theme of a graph. -/
def styled : Session :=
  ((layered.opened (.nodeStyle (.ofList [("shape", "box"), ("color", "red")]))).opened
    (.edgeStyle (.ofList [("color", "green")]))).opened
      (.nodeStyle (.ofList [("color", "blue")]))

theorem styled_resolved :
    Reachable styled ∧ styled.workspace.Resolves styled.entries ∧
      ((styled.workspace.buildNode (.named "a")).2.node? ⟨0⟩).map
        (fun node => ["shape", "color", "fontname"].map fun key => node.attrs.get? key) =
          some [some (.text "box"), some (.text "blue"), some (.text "Times-Roman")] := by
  have hn (style : NodeStyle) (s : Session) : Step s (s.opened (.nodeStyle style)) :=
    .opened (opens_opened trivial fun h => by cases h)
  have he (style : EdgeStyle) (s : Session) : Step s (s.opened (.edgeStyle style)) :=
    .opened (opens_opened trivial fun h => by cases h)
  have hs : Reachable styled :=
    ((layered_reachable.tail (hn _ _)).tail (he _ _)).tail (hn _ _)
  exact ⟨hs, attributes_resolved.2 styled styled.workspace hs rfl, by decide⟩

end Session

end DotDiagram
