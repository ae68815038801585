import DotDiagram.Proofs.Keyed
import DotDiagram.Proofs.Workspace.Constructions

/-! The layout of a workspace: what was made, which container lists it, and which names
the graphs claim. Looks and open scopes are left out. What is made changes the layout in
one place, that of the container that receives it; all else leaves the layout alone. -/

namespace DotDiagram

/-- What can be open and list what is made. -/
inductive Container where
  | graph (id : GraphId)
  | subgraph (id : SubgraphId)
  deriving DecidableEq

def Container.isSubgraph : Container → Bool
  | .graph _ => false
  | .subgraph _ => true

/-- What a container lists, in order. -/
structure Contents where
  nodes : List NodeId
  edges : List EdgeId
  subgraphs : List SubgraphId

def Contents.empty : Contents := ⟨[], [], []⟩

/-- The names of nodes and the pairs of names of edges that a graph has taken. -/
structure Claims where
  names : List String
  pairs : List (String × String)

namespace Contents

def addEdge (id : EdgeId) (c : Contents) : Contents := { c with edges := c.edges ++ [id] }

def addSubgraph (id : SubgraphId) (c : Contents) : Contents :=
  { c with subgraphs := c.subgraphs ++ [id] }

end Contents

namespace Claims

def addName (name : String) (k : Claims) : Claims := { k with names := name :: k.names }

def addPair (pair : String × String) (k : Claims) : Claims := { k with pairs := pair :: k.pairs }

end Claims

def Graph.contents (g : Graph) : Contents := ⟨g.nodes, g.edges, g.subgraphs⟩

def Graph.claims (g : Graph) : Claims := ⟨g.claimedNodes, g.claimedEdges⟩

def Subgraph.contents (s : Subgraph) : Contents := ⟨s.nodes.values, s.edges, s.subgraphs⟩

/-- Nodes stand with their names, edges with their ends, and both with whether they are
attached. Only subgraphs keep their nodes by name; these are their `keys`. -/
@[ext]
structure Layout where
  nodes : List (String × Bool)
  edges : List (NodeId × NodeId × Bool)
  subgraphs : Nat
  graphs : Nat
  contents : Container → Contents
  keys : Container → List String
  claims : GraphId → Claims

namespace Layout

def empty : Layout := ⟨[], [], 0, 0, fun _ => .empty, fun _ => [], fun _ => ⟨[], []⟩⟩

def nodeName (l : Layout) (n : NodeId) : String := ((l.nodes[n.index]?).map Prod.fst).getD ""

def edgeKey? (l : Layout) (e : EdgeId) : Option (String × String) :=
  (l.edges[e.index]?).map fun (source, target, _) => (l.nodeName source, l.nodeName target)

def Has (l : Layout) : Container → Prop
  | .graph id => id.index < l.graphs
  | .subgraph id => id.index < l.subgraphs

def pushNode (name : String) (attached : Bool) (l : Layout) : Layout :=
  { l with nodes := l.nodes ++ [(name, attached)] }

def pushEdge (source target : NodeId) (attached : Bool) (l : Layout) : Layout :=
  { l with edges := l.edges ++ [(source, target, attached)] }

def pushSubgraph (l : Layout) : Layout := { l with subgraphs := l.subgraphs + 1 }

def pushGraph (l : Layout) : Layout := { l with graphs := l.graphs + 1 }

/-- Only the open graph claims anything. -/
def claim (current : Option GraphId) (add : Claims → Claims) (l : Layout) : Layout :=
  { l with claims := fun g => if current = some g then add (l.claims g) else l.claims g }

/-- Only the receiver lists anything. -/
def list (receiver : Option Container) (add : Contents → Contents) (l : Layout) : Layout :=
  { l with contents := fun c => if receiver = some c then add (l.contents c) else l.contents c }

/-- A node whose name is among the keys takes the place of the one that had it. -/
def place (keys : List String) (name : String) (id : NodeId) (nodes : List NodeId) :
    List NodeId :=
  if name ∈ keys then nodes.set (keys.idxOf name) id else nodes ++ [id]

def listNode (receiver : Option Container) (id : NodeId) (name : String) (l : Layout) : Layout :=
  { l with
    contents := fun c =>
      if receiver = some c then
        { l.contents c with nodes := place (l.keys c) name id (l.contents c).nodes }
      else l.contents c
    keys := fun c =>
      if receiver = some c ∧ c.isSubgraph ∧ name ∉ l.keys c then l.keys c ++ [name]
      else l.keys c }

def addNode (receiver : Option Container) (current : Option GraphId) (name : String)
    (l : Layout) : Layout :=
  ((l.pushNode name receiver.isSome).claim current (.addName name)).listNode receiver
    ⟨l.nodes.length⟩ name

def addEdge (receiver : Option Container) (current : Option GraphId) (source target : NodeId)
    (attached : Bool) (l : Layout) : Layout :=
  if attached then
    ((l.pushEdge source target attached).claim current
      (.addPair (l.nodeName source, l.nodeName target))).list receiver (.addEdge ⟨l.edges.length⟩)
  else l.pushEdge source target attached

def addSubgraph (receiver : Option Container) (l : Layout) : Layout :=
  l.pushSubgraph.list receiver (.addSubgraph ⟨l.subgraphs⟩)

end Layout

/-- The container that receives what is made: the innermost open subgraph, or else the
open graph. -/
def Ambient.receiver? (a : Ambient) : Option Container :=
  (a.subgraph?.map .subgraph).or (a.graph?.map .graph)

namespace Workspace

def layout (w : Workspace) : Layout where
  nodes := w.nodes.toList.map fun node => (node.name, node.attached)
  edges := w.edges.toList.map fun edge => (edge.source, edge.target, edge.attached)
  subgraphs := w.subgraphs.size
  graphs := w.graphs.size
  contents
    | .graph id => ((w.graph? id).map Graph.contents).getD .empty
    | .subgraph id => ((w.subgraph? id).map Subgraph.contents).getD .empty
  keys
    | .graph _ => []
    | .subgraph id => ((w.subgraph? id).map fun s => s.nodes.keys).getD []
  claims id := ((w.graph? id).map Graph.claims).getD ⟨[], []⟩

/-- What is open exists. -/
structure Anchored (w : Workspace) : Prop where
  graphs : ∀ e ∈ w.ambient.graphs, e.value.index < w.graphs.size
  subgraphs : ∀ e ∈ w.ambient.subgraphs, e.value.index < w.subgraphs.size

variable {w : Workspace}

theorem layout_empty : Workspace.empty.layout = .empty := by
  refine Layout.ext rfl rfl rfl rfl (funext fun c => ?_) (funext fun c => ?_) (funext fun g => ?_)
  · cases c <;> simp [layout, empty, Layout.empty, graph?, subgraph?]
  · cases c <;> simp [layout, empty, Layout.empty, subgraph?]
  · simp [layout, empty, Layout.empty, graph?]

theorem length_nodes_layout (w : Workspace) : w.layout.nodes.length = w.nodes.size := by
  simp [layout]

theorem length_edges_layout (w : Workspace) : w.layout.edges.length = w.edges.size := by
  simp [layout]

theorem nodes_getElem?_layout (w : Workspace) (n : NodeId) :
    w.layout.nodes[n.index]? = (w.node? n).map fun node => (node.name, node.attached) := by
  simp [layout, node?]

theorem edges_getElem?_layout (w : Workspace) (e : EdgeId) :
    w.layout.edges[e.index]? =
      (w.edge? e).map fun edge => (edge.source, edge.target, edge.attached) := by
  simp [layout, edge?]

theorem nodeName_layout (w : Workspace) (n : NodeId) : w.layout.nodeName n = w.nodeName n := by
  rw [Layout.nodeName, nodes_getElem?_layout, Workspace.nodeName, Option.map_map]
  rfl

theorem edgeKey?_layout (w : Workspace) (e : EdgeId) :
    w.layout.edgeKey? e = w.edgeKeyOf? e := by
  rw [Layout.edgeKey?, edges_getElem?_layout, edgeKeyOf?, Option.map_map]
  congr 1
  funext edge
  simp only [Function.comp, nodeName_layout, edgeKey]

theorem map_toList_modify {α β : Type} (xs : Array α) (i : Nat) (f : α → α) (tag : α → β)
    (hf : ∀ x, tag (f x) = tag x) : (xs.modify i f).toList.map tag = xs.toList.map tag := by
  apply List.ext_getElem?
  intro j
  rw [List.getElem?_map, List.getElem?_map, Array.getElem?_toList, Array.getElem?_toList,
    Array.getElem?_modify]
  by_cases hij : i = j
  · cases xs[j]? <;> simp [hij, hf]
  · simp [hij]

theorem layout_modifyNode (id : NodeId) (f : Node → Node)
    (hf : ∀ node, ((f node).name, (f node).attached) = (node.name, node.attached)) :
    (w.modifyNode id f).layout = w.layout := by
  have h := map_toList_modify w.nodes id.index f (fun node => (node.name, node.attached)) hf
  simp only [layout, modifyNode, h]
  rfl

theorem layout_modifyEdge (id : EdgeId) (f : Edge → Edge)
    (hf : ∀ edge, ((f edge).source, (f edge).target, (f edge).attached) =
      (edge.source, edge.target, edge.attached)) :
    (w.modifyEdge id f).layout = w.layout := by
  have h := map_toList_modify w.edges id.index f
    (fun edge => (edge.source, edge.target, edge.attached)) hf
  simp only [layout, modifyEdge, h]
  rfl

theorem subgraph?_modifySubgraph (id s : SubgraphId) (f : Subgraph → Subgraph) :
    (w.modifySubgraph id f).subgraph? s =
      if s = id then (w.subgraph? id).map f else w.subgraph? s := by
  by_cases h : s = id
  · simp [h, subgraph?, modifySubgraph, Array.getElem?_modify]
  · have hne : id.index ≠ s.index := fun hi => h (congrArg SubgraphId.mk hi.symm)
    simp [h, hne, subgraph?, modifySubgraph, Array.getElem?_modify]

theorem graph?_modifyGraph_eq_ite (id g : GraphId) (f : Graph → Graph) :
    (w.modifyGraph id f).graph? g = if g = id then (w.graph? id).map f else w.graph? g := by
  by_cases h : g = id
  · simp [h, graph?, modifyGraph, Array.getElem?_modify]
  · have hne : id.index ≠ g.index := fun hi => h (congrArg GraphId.mk hi.symm)
    simp [h, hne, graph?, modifyGraph, Array.getElem?_modify]

theorem layout_modifySubgraph (id : SubgraphId) (f : Subgraph → Subgraph) :
    (w.modifySubgraph id f).layout =
      { w.layout with
        contents := fun c =>
          if c = .subgraph id then ((w.subgraph? id).map (Subgraph.contents ∘ f)).getD .empty
          else w.layout.contents c
        keys := fun c =>
          if c = .subgraph id then ((w.subgraph? id).map ((·.nodes.keys) ∘ f)).getD []
          else w.layout.keys c } := by
  refine Layout.ext rfl rfl ?_ rfl (funext fun c => ?_) (funext fun c => ?_) rfl
  · simp [layout, modifySubgraph]
  · cases c with
    | graph g => simp [layout, graph?, modifySubgraph]
    | subgraph s => by_cases h : s = id <;> simp [layout, subgraph?_modifySubgraph, h]
  · cases c with
    | graph g => simp [layout]
    | subgraph s => by_cases h : s = id <;> simp [layout, subgraph?_modifySubgraph, h]

theorem layout_modifyGraph (id : GraphId) (f : Graph → Graph) :
    (w.modifyGraph id f).layout =
      { w.layout with
        contents := fun c =>
          if c = .graph id then ((w.graph? id).map (Graph.contents ∘ f)).getD .empty
          else w.layout.contents c
        claims := fun g =>
          if g = id then ((w.graph? id).map (Graph.claims ∘ f)).getD ⟨[], []⟩
          else w.layout.claims g } := by
  refine Layout.ext rfl rfl rfl ?_ (funext fun c => ?_) (funext fun c => ?_) (funext fun g => ?_)
  · simp [layout, modifyGraph]
  · cases c with
    | subgraph s => simp [layout, subgraph?, modifyGraph]
    | graph g => by_cases h : g = id <;> simp [layout, graph?_modifyGraph_eq_ite, h]
  · cases c <;> simp [layout, subgraph?, modifyGraph]
  · by_cases h : g = id <;> simp [layout, graph?_modifyGraph_eq_ite, h]

theorem layout_modifySubgraph_same (id : SubgraphId) {f : Subgraph → Subgraph}
    (hc : ∀ s, (f s).contents = s.contents) (hk : ∀ s, (f s).nodes.keys = s.nodes.keys) :
    (w.modifySubgraph id f).layout = w.layout := by
  rw [layout_modifySubgraph]
  refine Layout.ext rfl rfl rfl rfl (funext fun c => ?_) (funext fun c => ?_) rfl
  · by_cases h : c = .subgraph id
    · cases hs : w.subgraph? id <;> simp [h, layout, hs, hc]
    · simp [h]
  · by_cases h : c = .subgraph id
    · cases hs : w.subgraph? id <;> simp [h, layout, hs, hk]
    · simp [h]

theorem layout_modifyGraph_same (id : GraphId) {f : Graph → Graph}
    (hc : ∀ g, (f g).contents = g.contents) (hk : ∀ g, (f g).claims = g.claims) :
    (w.modifyGraph id f).layout = w.layout := by
  rw [layout_modifyGraph]
  refine Layout.ext rfl rfl rfl rfl (funext fun c => ?_) rfl (funext fun g => ?_)
  · by_cases h : c = .graph id
    · cases hg : w.graph? id <;> simp [h, layout, hg, hc]
    · simp [h]
  · by_cases h : g = id
    · cases hg : w.graph? id <;> simp [h, layout, hg, hk]
    · simp [h]

section

variable {g : GraphId} {graph : Graph} {s : SubgraphId} {subgraph : Subgraph}

theorem layout_claim (hg : w.graph? g = some graph) {f : Graph → Graph} {add : Claims → Claims}
    (hc : ∀ g, (f g).contents = g.contents) (hk : ∀ g, (f g).claims = add g.claims) :
    (w.modifyGraph g f).layout = w.layout.claim (some g) add := by
  rw [layout_modifyGraph]
  refine Layout.ext rfl rfl rfl rfl (funext fun c => ?_) rfl (funext fun k => ?_)
  · by_cases h : c = .graph g
    · simp [h, layout, hg, hc, Layout.claim]
    · simp [h, Layout.claim]
  · by_cases h : g = k
    · simp [← h, layout, hg, hk, Layout.claim]
    · simp [h, Ne.symm h, Layout.claim]

theorem layout_listGraph (hg : w.graph? g = some graph) {f : Graph → Graph}
    {add : Contents → Contents} (hc : ∀ g, (f g).contents = add g.contents)
    (hk : ∀ g, (f g).claims = g.claims) :
    (w.modifyGraph g f).layout = w.layout.list (some (.graph g)) add := by
  rw [layout_modifyGraph]
  refine Layout.ext rfl rfl rfl rfl (funext fun c => ?_) rfl (funext fun k => ?_)
  · by_cases h : Container.graph g = c
    · simp [← h, layout, hg, hc, Layout.list]
    · simp [h, Ne.symm h, Layout.list]
  · by_cases h : k = g
    · simp [h, layout, hg, hk, Layout.list]
    · simp [h, Layout.list]

theorem layout_listSubgraph (hs : w.subgraph? s = some subgraph) {f : Subgraph → Subgraph}
    {add : Contents → Contents} (hc : ∀ s, (f s).contents = add s.contents)
    (hk : ∀ s, (f s).nodes.keys = s.nodes.keys) :
    (w.modifySubgraph s f).layout = w.layout.list (some (.subgraph s)) add := by
  rw [layout_modifySubgraph]
  refine Layout.ext rfl rfl rfl rfl (funext fun c => ?_) (funext fun c => ?_) rfl
  · by_cases h : Container.subgraph s = c
    · simp [← h, layout, hs, hc, Layout.list]
    · simp [h, Ne.symm h, Layout.list]
  · by_cases h : c = .subgraph s
    · simp [h, layout, hs, hk, Layout.list]
    · simp [h, Layout.list]

end

namespace Anchored

theorem exists_graph (h : w.Anchored) {g : GraphId} (hg : w.ambient.graph? = some g) :
    ∃ graph, w.graph? g = some graph := by
  obtain ⟨e, he, rfl⟩ := Option.map_eq_some_iff.mp hg
  have hlt := h.graphs e (List.mem_of_mem_head? he)
  exact ⟨w.graphs[e.value.index], Array.getElem?_eq_getElem hlt⟩

theorem exists_subgraph (h : w.Anchored) {s : SubgraphId} (hs : w.ambient.subgraph? = some s) :
    ∃ subgraph, w.subgraph? s = some subgraph := by
  obtain ⟨e, he, rfl⟩ := Option.map_eq_some_iff.mp hs
  have hlt := h.subgraphs e (List.mem_of_mem_head? he)
  exact ⟨w.subgraphs[e.value.index], Array.getElem?_eq_getElem hlt⟩

theorem layout_claimOpen (h : w.Anchored) {f : Graph → Graph} {add : Claims → Claims}
    (hc : ∀ g, (f g).contents = g.contents) (hk : ∀ g, (f g).claims = add g.claims) :
    (match w.ambient.graph? with
      | some g => w.modifyGraph g f
      | none => w).layout = w.layout.claim w.ambient.graph? add := by
  cases hg : w.ambient.graph? with
  | none => rfl
  | some g =>
    obtain ⟨graph, hgraph⟩ := h.exists_graph hg
    exact layout_claim hgraph hc hk

theorem layout_claimName (h : w.Anchored) (name : String) :
    (w.claimName name).layout = w.layout.claim w.ambient.graph? (.addName name) :=
  h.layout_claimOpen (fun _ => rfl) fun _ => rfl

theorem layout_claimPair (h : w.Anchored) (pair : String × String) :
    (w.claimPair pair).layout = w.layout.claim w.ambient.graph? (.addPair pair) :=
  h.layout_claimOpen (fun _ => rfl) fun _ => rfl

theorem layout_listOpen (h : w.Anchored) {f : Subgraph → Subgraph} {f' : Graph → Graph}
    {add : Contents → Contents} (hs : ∀ s, (f s).contents = add s.contents)
    (hn : ∀ s, (f s).nodes.keys = s.nodes.keys) (hg : ∀ g, (f' g).contents = add g.contents)
    (hk : ∀ g, (f' g).claims = g.claims) :
    (match w.ambient.subgraph?, w.ambient.graph? with
      | some s, _ => w.modifySubgraph s f
      | none, some g => w.modifyGraph g f'
      | none, none => w).layout = w.layout.list w.ambient.receiver? add := by
  unfold Ambient.receiver?
  cases hsub : w.ambient.subgraph? with
  | some s =>
    obtain ⟨subgraph, hsubgraph⟩ := h.exists_subgraph hsub
    exact layout_listSubgraph hsubgraph hs hn
  | none =>
    cases hgr : w.ambient.graph? with
    | none => rfl
    | some g =>
      obtain ⟨graph, hgraph⟩ := h.exists_graph hgr
      exact layout_listGraph hgraph hg hk

theorem layout_listEdge (h : w.Anchored) (id : EdgeId) :
    (w.listEdge id).layout = w.layout.list w.ambient.receiver? (.addEdge id) :=
  h.layout_listOpen (fun _ => rfl) (fun _ => rfl) (fun _ => rfl) fun _ => rfl

theorem layout_listSubgraph (h : w.Anchored) (id : SubgraphId) :
    (w.listSubgraph id).layout = w.layout.list w.ambient.receiver? (.addSubgraph id) :=
  h.layout_listOpen (fun _ => rfl) (fun _ => rfl) (fun _ => rfl) fun _ => rfl

theorem layout_listNode (h : w.Anchored) (id : NodeId) (name : String) :
    (w.listNode id name).layout = w.layout.listNode w.ambient.receiver? id name := by
  unfold listNode Ambient.receiver?
  cases hs : w.ambient.subgraph? with
  | some s =>
    obtain ⟨subgraph, hsub⟩ := h.exists_subgraph hs
    simp only [layout_modifySubgraph, hsub]
    refine Layout.ext rfl rfl rfl rfl (funext fun c => ?_) (funext fun c => ?_) rfl
    · by_cases hc : Container.subgraph s = c
      · simp [← hc, layout, hsub, Layout.listNode, Layout.place, Subgraph.contents,
          Keyed.values_insert]
      · simp [hc, Ne.symm hc, Layout.listNode]
    · by_cases hc : Container.subgraph s = c
      · by_cases hk : name ∈ subgraph.nodes.keys <;>
          simp [← hc, layout, hsub, Layout.listNode, Container.isSubgraph, Keyed.keys_insert, hk]
      · simp [hc, Ne.symm hc, Layout.listNode]
  | none =>
    cases hg : w.ambient.graph? with
    | none => simp [Layout.listNode]
    | some g =>
      obtain ⟨graph, hgraph⟩ := h.exists_graph hg
      simp only [layout_modifyGraph, hgraph]
      refine Layout.ext rfl rfl rfl rfl (funext fun c => ?_) (funext fun c => ?_) ?_
      · by_cases hc : Container.graph g = c
        · simp [← hc, layout, hgraph, Layout.listNode, Layout.place, Graph.contents]
        · simp [hc, Ne.symm hc, Layout.listNode]
      · by_cases hc : Container.graph g = c
        · simp [← hc, Layout.listNode, Container.isSubgraph]
        · simp [hc, Layout.listNode]
      · funext k
        by_cases hk : k = g <;> simp [hk, layout, hgraph, Layout.listNode, Graph.claims]

end Anchored

theorem containerOpen_eq (w : Workspace) : w.containerOpen = w.ambient.receiver?.isSome := by
  cases hs : w.ambient.subgraph? <;> cases hg : w.ambient.graph? <;>
    simp [containerOpen, Ambient.receiver?, hs, hg]

theorem layout_takeName (w : Workspace) (name : Option String) :
    (w.takeName name).2.layout = w.layout := by
  cases name <;> rfl

theorem layout_pushNode (w : Workspace) (node : Node) :
    { w with nodes := w.nodes.push node }.layout =
      w.layout.pushNode node.name node.attached := by
  simp [layout, Layout.pushNode, graph?, subgraph?]

theorem layout_pushEdge (w : Workspace) (edge : Edge) :
    { w with edges := w.edges.push edge }.layout =
      w.layout.pushEdge edge.source edge.target edge.attached := by
  simp [layout, Layout.pushEdge, graph?, subgraph?]

theorem getD_map_push {α β : Type} (xs : Array α) {x : α} (i : Nat) {f : α → β} {d : β}
    (hx : f x = d) : (((xs.push x)[i]?).map f).getD d = ((xs[i]?).map f).getD d := by
  rw [Array.getElem?_push]
  by_cases hi : i = xs.size <;> simp [hi, hx]

theorem layout_pushGraph (w : Workspace) {graph : Graph} (hc : graph.contents = .empty)
    (hk : graph.claims = ⟨[], []⟩) :
    { w with graphs := w.graphs.push graph }.layout = w.layout.pushGraph := by
  refine Layout.ext rfl rfl rfl (by simp [layout, Layout.pushGraph]) (funext fun c => ?_) rfl
    (funext fun g => getD_map_push w.graphs g.index hk)
  cases c with
  | graph g => exact getD_map_push w.graphs g.index hc
  | subgraph s => rfl

theorem layout_pushSubgraph (w : Workspace) {subgraph : Subgraph}
    (hc : subgraph.contents = .empty) (hk : subgraph.nodes.keys = []) :
    { w with subgraphs := w.subgraphs.push subgraph }.layout = w.layout.pushSubgraph := by
  refine Layout.ext rfl rfl (by simp [layout, Layout.pushSubgraph]) rfl (funext fun c => ?_)
    (funext fun c => ?_) rfl
  · cases c with
    | graph g => rfl
    | subgraph s => exact getD_map_push w.subgraphs s.index hc
  · cases c with
    | graph g => rfl
    | subgraph s => exact getD_map_push w.subgraphs s.index hk

theorem layout_buildGraph (w : Workspace) (spec : GraphSpec) :
    (w.buildGraph spec).2.layout = w.layout.pushGraph :=
  w.layout_pushGraph rfl rfl

theorem nameTaken_of_graph {g : GraphId} (hg : w.ambient.graph? = some g) (name : String) :
    w.nameTaken name = true ↔ name ∈ (w.layout.claims g).names := by
  simp only [nameTaken, hg, layout]
  cases w.graph? g <;> simp [Graph.claims]

theorem pairTaken_of_graph {g : GraphId} (hg : w.ambient.graph? = some g)
    (pair : String × String) :
    w.pairTaken pair = true ↔ pair ∈ (w.layout.claims g).pairs := by
  simp only [pairTaken, hg, layout]
  cases w.graph? g <;> simp [Graph.claims]

namespace Anchored

theorem of_le {w' : Workspace} (h : w.Anchored) (ha : w'.ambient = w.ambient)
    (hs : w.subgraphs.size ≤ w'.subgraphs.size) (hg : w.graphs.size ≤ w'.graphs.size) :
    w'.Anchored := by
  constructor
  · intro e he
    rw [ha] at he
    exact Nat.lt_of_lt_of_le (h.graphs e he) hg
  · intro e he
    rw [ha] at he
    exact Nat.lt_of_lt_of_le (h.subgraphs e he) hs

theorem of_layout {w' : Workspace} (h : w.Anchored) (ha : w'.ambient = w.ambient)
    (hs : w.layout.subgraphs ≤ w'.layout.subgraphs) (hg : w.layout.graphs ≤ w'.layout.graphs) :
    w'.Anchored :=
  h.of_le ha hs hg

theorem layout_addNode (h : w.Anchored) (name : String) (attrs : AttrSet) :
    (({ w with nodes := w.nodes.push ⟨name, attrs, w.containerOpen⟩ }.claimName name).listNode
        ⟨w.nodes.size⟩ name).layout =
      w.layout.addNode w.ambient.receiver? w.ambient.graph? name := by
  let pushed := { w with nodes := w.nodes.push ⟨name, attrs, w.containerOpen⟩ }
  have hpushed : pushed.Anchored := h.of_le rfl (Nat.le_refl _) (Nat.le_refl _)
  have hclaimed := hpushed.layout_claimName name
  have hc : (pushed.claimName name).Anchored := by
    refine hpushed.of_layout (ambient_claimName _ name) ?_ ?_ <;> rw [hclaimed] <;>
      exact Nat.le_refl _
  have hlisted := hc.layout_listNode ⟨w.nodes.size⟩ name
  rw [ambient_claimName, hclaimed, layout_pushNode, containerOpen_eq] at hlisted
  rw [hlisted, Layout.addNode, length_nodes_layout]

/-- A node is either refused, and nothing is listed or claimed, or it is added. -/
theorem layout_buildNode (h : w.Anchored) (spec : NodeSpec) :
    ((∃ e, (w.buildNode spec).1 = .error e) ∧ (w.buildNode spec).2.layout = w.layout) ∨
      ((w.takeName spec.name).2.nameTaken (w.takeName spec.name).1 = false ∧
        (w.buildNode spec).1 = .ok ⟨w.nodes.size⟩ ∧
        (w.buildNode spec).2.layout = w.layout.addNode w.ambient.receiver? w.ambient.graph?
          (w.takeName spec.name).1) := by
  unfold buildNode
  cases spec.directAttrs with
  | error e => exact .inl ⟨⟨e, rfl⟩, rfl⟩
  | ok direct =>
    by_cases ht : (w.takeName spec.name).2.nameTaken (w.takeName spec.name).1 = true
    · refine .inl ?_
      simp only [ht, if_true]
      exact ⟨⟨_, rfl⟩, w.layout_takeName spec.name⟩
    · refine .inr ⟨Bool.eq_false_iff.mpr ht, ?_⟩
      have hsize : (w.takeName spec.name).2.nodes.size = w.nodes.size := by
        cases spec.name <;> rfl
      have hnamed : (w.takeName spec.name).2.Anchored := by
        cases spec.name <;> exact h.of_le rfl (Nat.le_refl _) (Nat.le_refl _)
      simp only [if_neg ht]
      refine ⟨by rw [hsize], (hnamed.layout_addNode _ _).trans ?_⟩
      rw [layout_takeName, ambient_takeName]

theorem layout_buildEdge (h : w.Anchored) (spec : EdgeSpec) :
    (w.buildEdge spec).1 = ⟨w.edges.size⟩ ∧
      (w.buildEdge spec).2.layout = w.layout.addEdge w.ambient.receiver? w.ambient.graph?
        spec.source spec.target
        (w.containerOpen && !w.pairTaken (w.nodeName spec.source, w.nodeName spec.target)) := by
  refine ⟨rfl, ?_⟩
  simp only [buildEdge, Layout.addEdge]
  split
  · next hattached =>
    let edge : Edge := ⟨spec.source, spec.target,
      (w.ambient.edgeLayers spec.styles spec.attrs).resolve, true⟩
    let pair := (w.nodeName spec.source, w.nodeName spec.target)
    have hpushed : { w with edges := w.edges.push edge }.Anchored :=
      h.of_le rfl (Nat.le_refl _) (Nat.le_refl _)
    have hclaimed := hpushed.layout_claimPair pair
    have hc : ({ w with edges := w.edges.push edge }.claimPair pair).Anchored := by
      refine hpushed.of_layout (ambient_claimPair _ pair) ?_ ?_ <;> rw [hclaimed] <;>
        exact Nat.le_refl _
    have hlisted := hc.layout_listEdge ⟨w.edges.size⟩
    rw [ambient_claimPair, hclaimed, layout_pushEdge] at hlisted
    simp only [hattached, nodeName_layout, length_edges_layout]
    exact hlisted
  · next hattached =>
    rw [layout_pushEdge]

theorem layout_addSubgraph (h : w.Anchored) {subgraph : Subgraph}
    (hc : subgraph.contents = .empty) (hk : subgraph.nodes.keys = []) :
    ({ w with subgraphs := w.subgraphs.push subgraph }.listSubgraph ⟨w.subgraphs.size⟩).layout =
      w.layout.addSubgraph w.ambient.receiver? := by
  have hpushed : { w with subgraphs := w.subgraphs.push subgraph }.Anchored :=
    h.of_le rfl (by simp) (Nat.le_refl _)
  rw [hpushed.layout_listSubgraph, layout_pushSubgraph w hc hk]
  rfl

theorem layout_buildSubgraph (h : w.Anchored) (spec : SubgraphSpec) :
    (w.buildSubgraph spec).2.layout = w.layout.addSubgraph w.ambient.receiver? :=
  h.layout_addSubgraph rfl rfl

end Anchored

end Workspace

end DotDiagram
