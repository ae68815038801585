import DotDiagram.Proofs.Keyed
import DotDiagram.Workspace.Attach

/-! Drawing in an open graph that has no subgraphs. Each node that is built adds a
statement to what the graph says, and so does the first edge of each pair of names; what
was there before stays as it is. -/

namespace DotDiagram

namespace Dot

def EdgeStatement.ends (edge : EdgeStatement) : String × String := (edge.source, edge.target)

namespace Document

def names (doc : Document) : List String := doc.nodes.map NodeStatement.name

def pairs (doc : Document) : List (String × String) := doc.edges.map EdgeStatement.ends

def addNode (node : NodeStatement) (doc : Document) : Document :=
  { doc with nodes := doc.nodes ++ [node] }

def addEdge (edge : EdgeStatement) (doc : Document) : Document :=
  if edge.ends ∈ doc.pairs then doc else { doc with edges := doc.edges ++ [edge] }

theorem names_addNode (node : NodeStatement) (doc : Document) :
    (doc.addNode node).names = doc.names ++ [node.name] := by
  simp [names, addNode]

theorem names_addEdge (edge : EdgeStatement) (doc : Document) :
    (doc.addEdge edge).names = doc.names := by
  unfold addEdge
  split <;> rfl

end Document

end Dot

theorem exists_of_map_eq_map_some {α β : Type} {f : α → Option β} {l : List α} {m : List β}
    (h : l.map f = m.map some) {a : α} (ha : a ∈ l) : ∃ b, f a = some b := by
  have hm : f a ∈ m.map some := h ▸ List.mem_map_of_mem ha
  obtain ⟨b, -, hb⟩ := List.mem_map.mp hm
  exact ⟨b, hb.symm⟩

theorem filterMap_of_map_eq_map_some {α β : Type} {f : α → Option β} {l : List α} {m : List β}
    (h : l.map f = m.map some) : l.filterMap f = m := by
  have hid : l.filterMap f = (l.map f).filterMap id := by
    rw [List.filterMap_map]
    rfl
  rw [hid, h, List.filterMap_map]
  exact List.filterMap_some

namespace Workspace

structure Grows (w w' : Workspace) : Prop where
  nodes : ∀ id node, w.node? id = some node → w'.node? id = some node
  edges : ∀ id edge, w.edge? id = some edge → w'.edge? id = some edge

/-- What a graph says, and that it claims just the names and pairs that it shows. -/
structure Shows (w : Workspace) (graph : Graph) (doc : Dot.Document) : Prop where
  kind : doc.kind = graph.kind
  name : doc.name = graph.name
  attrs : doc.attrs = graph.attrs
  subgraphs : doc.subgraphs = []
  flat : graph.subgraphs = []
  nodes : graph.nodes.map w.nodeStatement = doc.nodes.map some
  edges : graph.edges.map w.edgeStatement = doc.edges.map some
  ends : ∀ id ∈ graph.edges, ∃ edge source target,
    w.edge? id = some edge ∧ w.node? edge.source = some source ∧ w.node? edge.target = some target
  claimedNodes : ∀ name, name ∈ graph.claimedNodes ↔ name ∈ doc.names
  claimedEdges : ∀ pair, pair ∈ graph.claimedEdges ↔ pair ∈ doc.pairs

variable {w w' : Workspace} {g : GraphId} {graph : Graph} {doc : Dot.Document}

theorem node?_push (w : Workspace) (node : Node) {id : NodeId} {old : Node}
    (h : w.node? id = some old) : { w with nodes := w.nodes.push node }.node? id = some old := by
  obtain ⟨hlt, -⟩ := Array.getElem?_eq_some_iff.mp h
  rw [node?, Array.getElem?_push, if_neg (Nat.ne_of_lt hlt)]
  exact h

theorem edge?_push (w : Workspace) (edge : Edge) {id : EdgeId} {old : Edge}
    (h : w.edge? id = some old) : { w with edges := w.edges.push edge }.edge? id = some old := by
  obtain ⟨hlt, -⟩ := Array.getElem?_eq_some_iff.mp h
  rw [edge?, Array.getElem?_push, if_neg (Nat.ne_of_lt hlt)]
  exact h

theorem graph?_modifyGraph (w : Workspace) (g : GraphId) (f : Graph → Graph) :
    (w.modifyGraph g f).graph? g = (w.graph? g).map f := by
  simp [graph?, modifyGraph, Array.getElem?_modify]

theorem edgeStatement_of_ends {id : EdgeId} {edge : Edge} {source target : Node}
    (he : w.edge? id = some edge) (hs : w.node? edge.source = some source)
    (ht : w.node? edge.target = some target) :
    w.edgeStatement id = some ⟨source.name, target.name, edge.attrs⟩ := by
  simp only [edgeStatement, he, nodeName, hs, ht, Option.map_some, Option.getD_some]

namespace Shows

theorem document? (h : w.Shows graph doc) (hg : w.graph? g = some graph) :
    w.document? g = some doc := by
  obtain ⟨kind, name, attrs, subgraphs, nodes, edges⟩ := doc
  obtain ⟨hkind, hname, hattrs, hsub, hflat, hnodes, hedges, -, -, -⟩ := h
  simp only at hkind hname hattrs hsub hnodes hedges
  simp only [Workspace.document?, hg, Option.map_some, hflat, List.filterMap_nil,
    filterMap_of_map_eq_map_some hnodes, filterMap_of_map_eq_map_some hedges, hkind, hname,
    hattrs, hsub]

theorem nodes_of_grows (h : w.Shows graph doc) (hw : w.Grows w') :
    graph.nodes.map w'.nodeStatement = doc.nodes.map some := by
  rw [← h.nodes]
  apply List.map_congr_left
  intro id hid
  obtain ⟨statement, hs⟩ := exists_of_map_eq_map_some h.nodes hid
  obtain ⟨node, hn, -⟩ := Option.map_eq_some_iff.mp hs
  rw [nodeStatement, nodeStatement, hn, hw.nodes id node hn]

theorem edges_of_grows (h : w.Shows graph doc) (hw : w.Grows w') :
    graph.edges.map w'.edgeStatement = doc.edges.map some := by
  rw [← h.edges]
  apply List.map_congr_left
  intro id hid
  obtain ⟨edge, source, target, he, hs, ht⟩ := h.ends id hid
  rw [edgeStatement_of_ends he hs ht, edgeStatement_of_ends (hw.edges id edge he)
    (hw.nodes _ source hs) (hw.nodes _ target ht)]

theorem ends_of_grows (h : w.Shows graph doc) (hw : w.Grows w') {id : EdgeId}
    (hid : id ∈ graph.edges) : ∃ edge source target,
      w'.edge? id = some edge ∧ w'.node? edge.source = some source ∧
        w'.node? edge.target = some target := by
  obtain ⟨edge, source, target, he, hs, ht⟩ := h.ends id hid
  exact ⟨edge, source, target, hw.edges id edge he, hw.nodes _ source hs, hw.nodes _ target ht⟩

theorem of_grows (h : w.Shows graph doc) (hw : w.Grows w') : w'.Shows graph doc :=
  ⟨h.kind, h.name, h.attrs, h.subgraphs, h.flat, h.nodes_of_grows hw, h.edges_of_grows hw,
    fun _ hid => h.ends_of_grows hw hid, h.claimedNodes, h.claimedEdges⟩

theorem addNode (h : w.Shows graph doc) (hw : w.Grows w') {id : NodeId} {node : Node}
    (hid : w'.node? id = some node) :
    w'.Shows
      { graph with
        claimedNodes := node.name :: graph.claimedNodes
        nodes := graph.nodes ++ [id] }
      (doc.addNode ⟨node.name, node.attrs⟩) := by
  refine ⟨h.kind, h.name, h.attrs, h.subgraphs, h.flat, ?_, h.edges_of_grows hw,
    fun _ hid => h.ends_of_grows hw hid, ?_, h.claimedEdges⟩
  · have hs : w'.nodeStatement id = some ⟨node.name, node.attrs⟩ := by
      rw [nodeStatement, hid, Option.map_some]
    simp only [Dot.Document.addNode, List.map_append, h.nodes_of_grows hw, List.map_cons, hs,
      List.map_nil]
  · intro name
    rw [Dot.Document.names_addNode, List.mem_append, List.mem_singleton, List.mem_cons,
      h.claimedNodes, or_comm]

theorem addEdge (h : w.Shows graph doc) (hw : w.Grows w') {id : EdgeId} {edge : Edge}
    {source target : Node} (hid : w'.edge? id = some edge)
    (hs : w'.node? edge.source = some source) (ht : w'.node? edge.target = some target)
    (hnew : (source.name, target.name) ∉ doc.pairs) :
    w'.Shows
      { graph with
        claimedEdges := (source.name, target.name) :: graph.claimedEdges
        edges := graph.edges ++ [id] }
      (doc.addEdge ⟨source.name, target.name, edge.attrs⟩) := by
  have hadd : doc.addEdge ⟨source.name, target.name, edge.attrs⟩ =
      { doc with edges := doc.edges ++ [⟨source.name, target.name, edge.attrs⟩] } := if_neg hnew
  rw [hadd]
  refine ⟨h.kind, h.name, h.attrs, h.subgraphs, h.flat, h.nodes_of_grows hw, ?_, ?_,
    h.claimedNodes, ?_⟩
  · simp only [List.map_append, h.edges_of_grows hw, List.map_cons,
      edgeStatement_of_ends hid hs ht, List.map_nil]
  · intro e he
    rcases List.mem_append.mp he with he | he
    · exact h.ends_of_grows hw he
    · rw [List.mem_singleton.mp he]
      exact ⟨edge, source, target, hid, hs, ht⟩
  · intro pair
    simp only [Dot.Document.pairs, List.map_append, List.map_cons, List.map_nil]
    rw [List.mem_append, List.mem_singleton, List.mem_cons, h.claimedEdges, or_comm]
    rfl

end Shows

theorem ambient_modifyGraph (w : Workspace) (g : GraphId) (f : Graph → Graph) :
    (w.modifyGraph g f).ambient = w.ambient :=
  rfl

theorem modifyGraph_modifyGraph (w : Workspace) (g : GraphId) (f f' : Graph → Graph) :
    (w.modifyGraph g f).modifyGraph g f' = w.modifyGraph g (f' ∘ f) := by
  have hgraphs : (w.graphs.modify g.index f).modify g.index f' =
      w.graphs.modify g.index (f' ∘ f) := by
    apply Array.ext_getElem?
    intro i
    rw [Array.getElem?_modify, Array.getElem?_modify, Array.getElem?_modify]
    split
    · rw [Option.map_map]
    · rfl
  simp only [modifyGraph, hgraphs]

section

variable {spec : NodeSpec} {direct : AttrSet} {name : String}

theorem buildNode_of_taken (hg : w.ambient.graph? = some g) (hgraph : w.graph? g = some graph)
    (hd : spec.directAttrs = .ok direct) (hn : spec.name = some name)
    (ht : name ∈ graph.claimedNodes) : w.buildNode spec = (.error (.duplicateNode name), w) := by
  have htaken : w.nameTaken name = true := by
    simp [nameTaken, hg, hgraph, ht]
  simp only [buildNode, hd, hn, takeName, htaken, if_true]

theorem buildNode_of_new (hg : w.ambient.graph? = some g) (hsub : w.ambient.subgraph? = none)
    (hgraph : w.graph? g = some graph) (hd : spec.directAttrs = .ok direct)
    (hn : spec.name = some name) (hnew : name ∉ graph.claimedNodes) :
    w.buildNode spec = (.ok ⟨w.nodes.size⟩,
      { w with nodes := w.nodes.push ⟨name,
          (w.ambient.nodeLayers spec.styles direct).resolve, true⟩ }.modifyGraph g
        fun (r : Graph) => { r with
          nodes := r.nodes ++ [NodeId.mk w.nodes.size]
          claimedNodes := name :: r.claimedNodes }) := by
  have hfree : w.nameTaken name = false := by
    simp [nameTaken, hg, hgraph, hnew]
  have hopen : w.containerOpen = true := by
    simp [containerOpen, hg]
  simp only [buildNode, hd, hn, takeName, hfree, hopen, claimName, listNode, hg,
    ambient_modifyGraph, hsub, modifyGraph_modifyGraph, Bool.false_eq_true, if_false]
  rfl

end

theorem buildEdge_of_new (hg : w.ambient.graph? = some g) (hsub : w.ambient.subgraph? = none)
    (hgraph : w.graph? g = some graph) (spec : EdgeSpec) {pair : String × String}
    (hpair : (w.nodeName spec.source, w.nodeName spec.target) = pair)
    (hnew : pair ∉ graph.claimedEdges) :
    (w.buildEdge spec).2 =
      { w with edges := w.edges.push ⟨spec.source, spec.target,
          (w.ambient.edgeLayers spec.styles spec.attrs).resolve, true⟩ }.modifyGraph g
        fun (r : Graph) => { r with
          edges := r.edges ++ [EdgeId.mk w.edges.size]
          claimedEdges := pair :: r.claimedEdges } := by
  have hfree : w.pairTaken pair = false := by
    simp [pairTaken, hg, hgraph, hnew]
  have hopen : w.containerOpen = true := by
    simp [containerOpen, hg]
  simp only [buildEdge, hpair, hfree, hopen, claimPair, listEdge, hg, ambient_modifyGraph, hsub,
    modifyGraph_modifyGraph, Bool.not_false, Bool.and_true, if_true]
  rfl

end Workspace

/-- Only the graph is open, and perhaps a theme. -/
structure Ambient.Canvas (a : Ambient) (g : GraphId) (theme : Option Theme) : Prop where
  graph? : a.graph? = some g
  subgraph? : a.subgraph? = none
  theme? : a.theme? = theme
  nodeStyles : a.nodeStyles = []
  edgeStyles : a.edgeStyles = []

namespace Ambient.Canvas

variable {a : Ambient} {g : GraphId} {theme : Option Theme}

theorem nodeLayers (h : a.Canvas g theme) (explicit : List NodeStyle) (direct : AttrSet) :
    a.nodeLayers explicit direct = ⟨theme.map Theme.node, [], explicit, direct⟩ := by
  simp [Ambient.nodeLayers, activeNodeStyles, h.theme?, h.nodeStyles]

theorem edgeLayers (h : a.Canvas g theme) (explicit : List EdgeStyle) (direct : AttrSet) :
    a.edgeLayers explicit direct = ⟨theme.map Theme.edge, [], explicit, direct⟩ := by
  simp [Ambient.edgeLayers, activeEdgeStyles, h.theme?, h.edgeStyles]

end Ambient.Canvas

namespace Workspace

/-- The open graph says `doc`, and `nodes` are its nodes by name. -/
structure Draft (w : Workspace) (g : GraphId) (theme : Option Theme) (nodes : Keyed NodeId)
    (doc : Dot.Document) : Prop where
  canvas : w.ambient.Canvas g theme
  current : ∃ graph, w.graph? g = some graph ∧ w.Shows graph doc
  listed : ∀ name, (nodes.get? name).isSome = true ↔ name ∈ doc.names
  named : ∀ name id, nodes.get? name = some id → ∃ node, w.node? id = some node ∧ node.name = name

namespace Draft

variable {w : Workspace} {g : GraphId} {theme : Option Theme} {nodes : Keyed NodeId}
  {doc : Dot.Document}

theorem pairTaken_iff (h : w.Draft g theme nodes doc) (pair : String × String) :
    w.pairTaken pair = true ↔ pair ∈ doc.pairs := by
  obtain ⟨graph, hg, hs⟩ := h.current
  simp only [pairTaken, h.canvas.graph?, hg, Option.map_some, Option.getD_some]
  rw [List.contains_iff_mem, hs.claimedEdges]

section

variable {spec : NodeSpec} {direct : AttrSet} {name : String}

theorem buildNode_taken (h : w.Draft g theme nodes doc) (hd : spec.directAttrs = .ok direct)
    (hn : spec.name = some name) (ht : name ∈ doc.names) :
    w.buildNode spec = (.error (.duplicateNode name), w) := by
  obtain ⟨graph, hg, hs⟩ := h.current
  exact buildNode_of_taken h.canvas.graph? hg hd hn ((hs.claimedNodes name).mpr ht)

theorem buildNode_new (h : w.Draft g theme nodes doc) (hd : spec.directAttrs = .ok direct)
    (hn : spec.name = some name) (hnew : name ∉ doc.names) :
    ∃ id w', w.buildNode spec = (.ok id, w') ∧
      w'.Draft g theme (nodes.insert name id) (doc.addNode
        ⟨name, Layers.resolve ⟨theme.map Theme.node, [], spec.styles, direct⟩⟩) := by
  obtain ⟨graph, hg, hs⟩ := h.current
  have hbuilt := buildNode_of_new h.canvas.graph? h.canvas.subgraph? hg hd hn
    fun ht => hnew ((hs.claimedNodes name).mp ht)
  rw [h.canvas.nodeLayers] at hbuilt
  let id : NodeId := ⟨w.nodes.size⟩
  let node : Node := ⟨name, Layers.resolve ⟨theme.map Theme.node, [], spec.styles, direct⟩, true⟩
  let w' := { w with nodes := w.nodes.push node }.modifyGraph g fun (r : Graph) =>
    { r with nodes := r.nodes ++ [id], claimedNodes := name :: r.claimedNodes }
  have hw : w.Grows w' := ⟨fun _ _ hold => w.node?_push node hold, fun _ _ hold => hold⟩
  have hid : w'.node? id = some node := Array.getElem?_push_size
  refine ⟨id, w', hbuilt, h.canvas, ?_, ?_, ?_⟩
  · refine ⟨_, ?_, hs.addNode hw hid⟩
    have hold : { w with nodes := w.nodes.push node }.graph? g = some graph := hg
    rw [graph?_modifyGraph, hold]
    rfl
  · intro other
    rw [Keyed.get?_insert, Dot.Document.names_addNode, List.mem_append, List.mem_singleton]
    by_cases ho : other = name
    · simp [ho]
    · rw [if_neg ho, h.listed]
      simp [ho]
  · intro other id ho
    rw [Keyed.get?_insert] at ho
    by_cases heq : other = name
    · rw [if_pos heq, Option.some.injEq] at ho
      rw [heq, ← ho]
      exact ⟨node, hid, rfl⟩
    · rw [if_neg heq] at ho
      obtain ⟨found, hf, hfn⟩ := h.named other id ho
      exact ⟨found, hw.nodes id found hf, hfn⟩

end

/-- An edge between names that are connected already changes nothing that is said. -/
theorem buildEdge (h : w.Draft g theme nodes doc) (spec : EdgeSpec) {source target : String}
    (hs : nodes.get? source = some spec.source) (ht : nodes.get? target = some spec.target) :
    (w.buildEdge spec).2.Draft g theme nodes (doc.addEdge ⟨source, target,
      Layers.resolve ⟨theme.map Theme.edge, [], spec.styles, spec.attrs⟩⟩) := by
  obtain ⟨start, hstart, rfl⟩ := h.named source _ hs
  obtain ⟨stop, hstop, rfl⟩ := h.named target _ ht
  obtain ⟨graph, hg, hshown⟩ := h.current
  let id : EdgeId := ⟨w.edges.size⟩
  let attrs := Layers.resolve ⟨theme.map Theme.edge, [], spec.styles, spec.attrs⟩
  let pair := (start.name, stop.name)
  have hopen : w.containerOpen = true := by
    simp [containerOpen, h.canvas.graph?]
  have hpair : (w.nodeName spec.source, w.nodeName spec.target) = pair := by
    simp [nodeName, hstart, hstop, pair]
  by_cases hp : pair ∈ doc.pairs
  · let edge : Edge := ⟨spec.source, spec.target, attrs, false⟩
    let w' := { w with edges := w.edges.push edge }
    have hw : w.Grows w' := ⟨fun _ _ hold => hold, fun _ _ hold => w.edge?_push edge hold⟩
    have htaken := (h.pairTaken_iff pair).mpr hp
    have hbuilt : (w.buildEdge spec).2 = w' := by
      simp [Workspace.buildEdge, hpair, htaken, h.canvas.edgeLayers, w', edge, attrs]
    have hadd : doc.addEdge ⟨start.name, stop.name, attrs⟩ = doc := if_pos hp
    rw [hbuilt, hadd]
    exact ⟨h.canvas, ⟨graph, hg, hshown.of_grows hw⟩, h.listed, h.named⟩
  · let edge : Edge := ⟨spec.source, spec.target, attrs, true⟩
    let w' := { w with edges := w.edges.push edge }.modifyGraph g fun (r : Graph) =>
      { r with edges := r.edges ++ [id], claimedEdges := pair :: r.claimedEdges }
    have hw : w.Grows w' := ⟨fun _ _ hold => hold, fun _ _ hold => w.edge?_push edge hold⟩
    have hid : w'.edge? id = some edge := Array.getElem?_push_size
    have hbuilt : (w.buildEdge spec).2 = w' := by
      rw [buildEdge_of_new h.canvas.graph? h.canvas.subgraph? hg spec hpair
        fun hc => hp ((hshown.claimedEdges pair).mp hc), h.canvas.edgeLayers]
    rw [hbuilt]
    refine ⟨h.canvas, ⟨_, ?_, hshown.addEdge hw hid hstart hstop hp⟩, ?_, h.named⟩
    · have hold : { w with edges := w.edges.push edge }.graph? g = some graph := hg
      rw [graph?_modifyGraph, hold]
      rfl
    · intro name
      rw [Dot.Document.names_addEdge]
      exact h.listed name

end Draft

end Workspace

end DotDiagram
