import Mathlib.Logic.Relation
import DotDiagram.Proofs.Workspace.Layout

/-! Containment. A subgraph is listed by one container, made before it, and nothing at all
is listed twice; so what stands in a graph stands in no other. Whatever is made, and
whichever container receives it, this remains so. -/

namespace DotDiagram

/-- No two places, in one container or in two, list the same thing. -/
def Once {α : Type} (lists : Container → List α) : Prop :=
  ∀ (c d : Container) (i j : Nat) (a : α),
    (lists c)[i]? = some a → (lists d)[j]? = some a → c = d ∧ i = j

theorem getElem?_concat_cases {α : Type} {l : List α} {x a : α} {i : Nat}
    (h : (l ++ [x])[i]? = some a) : l[i]? = some a ∨ a = x ∧ i = l.length := by
  rw [List.getElem?_append] at h
  split at h
  · exact .inl h
  · rw [List.getElem?_singleton] at h
    split at h
    · exact .inr ⟨(Option.some.inj h).symm, by omega⟩
    · cases h

section

variable {α : Type} {lists lists' : Container → List α} {new : α}

/-- Something new is listed at one place of the receiver. -/
theorem Once.put (h : Once lists) (fresh : ∀ c, new ∉ lists c) (receiver : Option Container)
    (spot : Container → Nat) (hput : ∀ c i a, (lists' c)[i]? = some a →
      (lists c)[i]? = some a ∨ a = new ∧ receiver = some c ∧ i = spot c) : Once lists' := by
  have hnew : ∀ c i, (lists c)[i]? ≠ some new :=
    fun c i hi => fresh c (List.mem_of_getElem? hi)
  intro c d i j a hi hj
  rcases hput c i a hi with hi | ⟨rfl, hc, hi⟩
  · rcases hput d j a hj with hj | ⟨rfl, -, -⟩
    · exact h c d i j a hi hj
    · exact absurd hi (hnew c i)
  · rcases hput d j a hj with hj | ⟨-, hd, hj⟩
    · exact absurd hj (hnew d j)
    · have hcd : c = d := Option.some.inj (hc.symm.trans hd)
      exact ⟨hcd, by rw [hi, hj, hcd]⟩

theorem Once.append (h : Once lists) (fresh : ∀ c, new ∉ lists c) (receiver : Option Container)
    (hl : ∀ c, lists' c = if receiver = some c then lists c ++ [new] else lists c) :
    Once lists' := by
  apply h.put fresh receiver fun c => (lists c).length
  intro c i a hi
  rw [hl] at hi
  by_cases hc : receiver = some c
  · rw [if_pos hc] at hi
    rcases getElem?_concat_cases hi with hi | ⟨ha, hi⟩
    · exact .inl hi
    · exact .inr ⟨ha, hc, hi⟩
  · rw [if_neg hc] at hi
    exact .inl hi

theorem Once.owner_unique (h : Once lists) {c d : Container} {a : α} (hc : a ∈ lists c)
    (hd : a ∈ lists d) : c = d := by
  obtain ⟨i, hi⟩ := List.mem_iff_getElem?.mp hc
  obtain ⟨j, hj⟩ := List.mem_iff_getElem?.mp hd
  exact (h c d i j a hi hj).1

end

namespace Layout

/-- One container stands directly in another. -/
def Child (l : Layout) (c d : Container) : Prop :=
  ∃ s, d = .subgraph s ∧ s ∈ (l.contents c).subgraphs

/-- `d` is `c`, or stands in it at any depth. -/
abbrev Within (l : Layout) (c d : Container) : Prop := Relation.ReflTransGen l.Child c d

/-- The node is listed in the tree of the graph. -/
def NodeIn (l : Layout) (g : GraphId) (n : NodeId) : Prop :=
  ∃ c, l.Within (.graph g) c ∧ n ∈ (l.contents c).nodes

def EdgeIn (l : Layout) (g : GraphId) (e : EdgeId) : Prop :=
  ∃ c, l.Within (.graph g) c ∧ e ∈ (l.contents c).edges

structure WellFormed (l : Layout) : Prop where
  nodesOnce : Once fun c => (l.contents c).nodes
  edgesOnce : Once fun c => (l.contents c).edges
  subgraphsOnce : Once fun c => (l.contents c).subgraphs
  blank : ∀ c, ¬ l.Has c → l.contents c = .empty
  nodeListed : ∀ c, ∀ n ∈ (l.contents c).nodes, ∃ name, l.nodes[n.index]? = some (name, true)
  edgeListed : ∀ e, (∃ c, e ∈ (l.contents c).edges) ↔
    ∃ source target, l.edges[e.index]? = some (source, target, true)
  childKnown : ∀ c, ∀ s ∈ (l.contents c).subgraphs, s.index < l.subgraphs
  childLater : ∀ p, ∀ s ∈ (l.contents (.subgraph p)).subgraphs, p.index < s.index
  unkeyed : ∀ g, l.keys (.graph g) = []
  named : ∀ s, l.keys (.subgraph s) = (l.contents (.subgraph s)).nodes.map l.nodeName
  ends : ∀ (i : Nat) (source target : NodeId) (attached : Bool),
    l.edges[i]? = some (source, target, attached) →
      source.index < l.nodes.length ∧ target.index < l.nodes.length

variable {l : Layout} {receiver : Option Container} {current : Option GraphId}

theorem place_of_mem {keys : List String} {name : String} (id : NodeId) (nodes : List NodeId)
    (h : name ∈ keys) : place keys name id nodes = nodes.set (keys.idxOf name) id := if_pos h

theorem place_of_not_mem {keys : List String} {name : String} (id : NodeId)
    (nodes : List NodeId) (h : name ∉ keys) : place keys name id nodes = nodes ++ [id] := if_neg h

theorem getElem?_place {keys : List String} {name : String} {id n : NodeId} {nodes : List NodeId}
    {i : Nat} (h : (place keys name id nodes)[i]? = some n) :
    nodes[i]? = some n ∨
      n = id ∧ i = if name ∈ keys then keys.idxOf name else nodes.length := by
  by_cases hk : name ∈ keys
  · rw [place_of_mem id nodes hk, List.getElem?_set] at h
    by_cases hi : keys.idxOf name = i
    · rw [if_pos hi] at h
      split at h
      · exact .inr ⟨(Option.some.inj h).symm, by rw [if_pos hk, hi]⟩
      · cases h
    · rw [if_neg hi] at h
      exact .inl h
  · rw [place_of_not_mem id nodes hk] at h
    rw [if_neg hk]
    exact getElem?_concat_cases h

theorem set_idxOf_self {keys : List String} {name : String} (h : name ∈ keys) :
    keys.set (keys.idxOf name) name = keys := by
  have hlt := List.idxOf_lt_length_iff.mpr h
  have hself := List.set_getElem_self hlt
  rwa [List.getElem_idxOf hlt] at hself

theorem map_place {keys : List String} {name : String} {id : NodeId} {nodes : List NodeId}
    {f : NodeId → String} (hf : nodes.map f = keys) (hid : f id = name) :
    (place keys name id nodes).map f = if name ∈ keys then keys else keys ++ [name] := by
  by_cases hk : name ∈ keys
  · rw [place_of_mem id nodes hk, List.map_set, hf, hid, set_idxOf_self hk, if_pos hk]
  · rw [place_of_not_mem id nodes hk, List.map_append, hf, List.map_singleton, hid, if_neg hk]

section

variable (l : Layout) (receiver : Option Container) (current : Option GraphId)

section

variable (name : String)

theorem contents_addNode (c : Container) :
    (l.addNode receiver current name).contents c =
      if receiver = some c then
        { l.contents c with nodes := place (l.keys c) name ⟨l.nodes.length⟩ (l.contents c).nodes }
      else l.contents c := rfl

@[simp]
theorem nodes_addNode :
    (l.addNode receiver current name).nodes = l.nodes ++ [(name, receiver.isSome)] := rfl

@[simp]
theorem edges_addNode : (l.addNode receiver current name).edges = l.edges := rfl

@[simp]
theorem subgraphs_addNode : (l.addNode receiver current name).subgraphs = l.subgraphs := rfl

@[simp]
theorem graphs_addNode : (l.addNode receiver current name).graphs = l.graphs := rfl

@[simp]
theorem contents_edges_addNode (c : Container) :
    ((l.addNode receiver current name).contents c).edges = (l.contents c).edges := by
  rw [contents_addNode]
  split <;> rfl

@[simp]
theorem contents_subgraphs_addNode (c : Container) :
    ((l.addNode receiver current name).contents c).subgraphs = (l.contents c).subgraphs := by
  rw [contents_addNode]
  split <;> rfl

theorem keys_addNode (c : Container) :
    (l.addNode receiver current name).keys c =
      if receiver = some c ∧ c.isSubgraph ∧ name ∉ l.keys c then l.keys c ++ [name]
      else l.keys c := rfl

theorem nodeName_addNode_new :
    (l.addNode receiver current name).nodeName ⟨l.nodes.length⟩ = name := by
  simp [nodeName]

theorem nodeName_addNode {n : NodeId} (h : n.index < l.nodes.length) :
    (l.addNode receiver current name).nodeName n = l.nodeName n := by
  rw [nodeName, nodes_addNode, List.getElem?_append_left h, nodeName]

end

section

variable (source target : NodeId) (attached : Bool)

theorem contents_addEdge (c : Container) :
    (l.addEdge receiver current source target attached).contents c =
      if attached = true ∧ receiver = some c then (l.contents c).addEdge ⟨l.edges.length⟩
      else l.contents c := by
  cases attached <;> simp [addEdge, list, claim, pushEdge]

@[simp]
theorem nodes_addEdge : (l.addEdge receiver current source target attached).nodes = l.nodes := by
  cases attached <;> rfl

@[simp]
theorem edges_addEdge : (l.addEdge receiver current source target attached).edges =
    l.edges ++ [(source, target, attached)] := by
  cases attached <;> rfl

@[simp]
theorem keys_addEdge : (l.addEdge receiver current source target attached).keys = l.keys := by
  cases attached <;> rfl

@[simp]
theorem subgraphs_addEdge :
    (l.addEdge receiver current source target attached).subgraphs = l.subgraphs := by
  cases attached <;> rfl

@[simp]
theorem graphs_addEdge :
    (l.addEdge receiver current source target attached).graphs = l.graphs := by
  cases attached <;> rfl

@[simp]
theorem contents_nodes_addEdge (c : Container) :
    ((l.addEdge receiver current source target attached).contents c).nodes =
      (l.contents c).nodes := by
  rw [contents_addEdge]
  split <;> rfl

@[simp]
theorem contents_subgraphs_addEdge (c : Container) :
    ((l.addEdge receiver current source target attached).contents c).subgraphs =
      (l.contents c).subgraphs := by
  rw [contents_addEdge]
  split <;> rfl

theorem mem_edges_addEdge {c : Container} {e : EdgeId} :
    e ∈ ((l.addEdge receiver current source target attached).contents c).edges ↔
      e ∈ (l.contents c).edges ∨ e = ⟨l.edges.length⟩ ∧ attached = true ∧ receiver = some c := by
  rw [contents_addEdge]
  by_cases hc : attached = true ∧ receiver = some c <;> simp [hc, Contents.addEdge]

@[simp]
theorem nodeName_addEdge (n : NodeId) :
    (l.addEdge receiver current source target attached).nodeName n = l.nodeName n := by
  rw [nodeName, nodes_addEdge, nodeName]

end

theorem contents_addSubgraph (c : Container) :
    (l.addSubgraph receiver).contents c =
      if receiver = some c then (l.contents c).addSubgraph ⟨l.subgraphs⟩ else l.contents c := rfl

theorem mem_subgraphs_addSubgraph {c : Container} {s : SubgraphId} :
    s ∈ ((l.addSubgraph receiver).contents c).subgraphs ↔
      s ∈ (l.contents c).subgraphs ∨ s = ⟨l.subgraphs⟩ ∧ receiver = some c := by
  rw [contents_addSubgraph]
  by_cases hc : receiver = some c <;> simp [hc, Contents.addSubgraph]

@[simp]
theorem contents_nodes_addSubgraph (c : Container) :
    ((l.addSubgraph receiver).contents c).nodes = (l.contents c).nodes := by
  rw [contents_addSubgraph]
  split <;> rfl

@[simp]
theorem contents_edges_addSubgraph (c : Container) :
    ((l.addSubgraph receiver).contents c).edges = (l.contents c).edges := by
  rw [contents_addSubgraph]
  split <;> rfl

end

theorem Has.of_le {l' : Layout} {c : Container} (h : l.Has c) (hs : l.subgraphs ≤ l'.subgraphs)
    (hg : l.graphs ≤ l'.graphs) : l'.Has c := by
  cases c with
  | graph g => exact Nat.lt_of_lt_of_le h hg
  | subgraph s => exact Nat.lt_of_lt_of_le h hs

namespace WellFormed

theorem node_known (h : l.WellFormed) {c : Container} {n : NodeId}
    (hn : n ∈ (l.contents c).nodes) : n.index < l.nodes.length := by
  obtain ⟨name, hname⟩ := h.nodeListed c n hn
  exact (List.getElem?_eq_some_iff.mp hname).1

theorem edge_known (h : l.WellFormed) {c : Container} {e : EdgeId}
    (he : e ∈ (l.contents c).edges) : e.index < l.edges.length := by
  obtain ⟨source, target, hedge⟩ := (h.edgeListed e).mp ⟨c, he⟩
  exact (List.getElem?_eq_some_iff.mp hedge).1

theorem empty : Layout.empty.WellFormed := by
  constructor <;> simp [Layout.empty, Contents.empty, Once]

theorem addNode (h : l.WellFormed) (hr : ∀ c, receiver = some c → l.Has c) (name : String) :
    (l.addNode receiver current name).WellFormed where
  nodesOnce := by
    have fresh : ∀ c, (⟨l.nodes.length⟩ : NodeId) ∉ (l.contents c).nodes :=
      fun c hn => Nat.lt_irrefl _ (h.node_known hn)
    apply h.nodesOnce.put fresh receiver fun c =>
      if name ∈ l.keys c then (l.keys c).idxOf name else (l.contents c).nodes.length
    intro c i n hn
    by_cases hc : receiver = some c
    · simp only [contents_addNode, if_pos hc] at hn
      rcases getElem?_place hn with hn | ⟨hn, hi⟩
      · exact .inl hn
      · exact .inr ⟨hn, hc, hi⟩
    · simp only [contents_addNode, if_neg hc] at hn
      exact .inl hn
  edgesOnce := by
    simp only [contents_edges_addNode]
    exact h.edgesOnce
  subgraphsOnce := by
    simp only [contents_subgraphs_addNode]
    exact h.subgraphsOnce
  blank c hc := by
    have hc' : ¬ l.Has c := fun hh => hc (hh.of_le (Nat.le_refl _) (Nat.le_refl _))
    rw [contents_addNode, if_neg fun he => hc' (hr c he)]
    exact h.blank c hc'
  nodeListed c n hn := by
    have hold : ∀ c, n ∈ (l.contents c).nodes →
        ∃ name', (l.addNode receiver current name).nodes[n.index]? = some (name', true) := by
      intro c hn
      obtain ⟨name', hname⟩ := h.nodeListed c n hn
      exact ⟨name', by rw [nodes_addNode, List.getElem?_append_left (h.node_known hn), hname]⟩
    obtain ⟨i, hi⟩ := List.mem_iff_getElem?.mp hn
    by_cases hc : receiver = some c
    · simp only [contents_addNode, if_pos hc] at hi
      rcases getElem?_place hi with hi | ⟨rfl, -⟩
      · exact hold c (List.mem_of_getElem? hi)
      · exact ⟨name, by simp [hc]⟩
    · simp only [contents_addNode, if_neg hc] at hi
      exact hold c (List.mem_of_getElem? hi)
  edgeListed e := by
    simp only [contents_edges_addNode, edges_addNode]
    exact h.edgeListed e
  childKnown c s hs := by
    rw [contents_subgraphs_addNode] at hs
    exact h.childKnown c s hs
  childLater p s hs := by
    rw [contents_subgraphs_addNode] at hs
    exact h.childLater p s hs
  unkeyed g := by
    rw [keys_addNode, if_neg fun hh => Bool.false_ne_true hh.2.1]
    exact h.unkeyed g
  named s := by
    have hold : (l.contents (.subgraph s)).nodes.map (l.addNode receiver current name).nodeName =
        l.keys (.subgraph s) := by
      rw [h.named s]
      exact List.map_congr_left fun n hn =>
        l.nodeName_addNode receiver current name (h.node_known hn)
    rw [keys_addNode, contents_addNode]
    by_cases hc : receiver = some (.subgraph s)
    · simp only [if_pos hc, map_place hold (l.nodeName_addNode_new receiver current name)]
      by_cases hk : name ∈ l.keys (.subgraph s) <;> simp [hc, hk, Container.isSubgraph]
    · rw [if_neg hc, if_neg fun hh => hc hh.1]
      exact hold.symm
  ends i source target attached he := by
    obtain ⟨hs, ht⟩ := h.ends i source target attached he
    rw [nodes_addNode, List.length_append]
    exact ⟨Nat.lt_add_right _ hs, Nat.lt_add_right _ ht⟩

theorem addEdge (h : l.WellFormed) (hr : ∀ c, receiver = some c → l.Has c)
    {source target : NodeId} (hs : source.index < l.nodes.length)
    (ht : target.index < l.nodes.length) {attached : Bool}
    (ha : attached = true → receiver.isSome = true) :
    (l.addEdge receiver current source target attached).WellFormed where
  nodesOnce := by
    simp only [contents_nodes_addEdge]
    exact h.nodesOnce
  edgesOnce := by
    have fresh : ∀ c, (⟨l.edges.length⟩ : EdgeId) ∉ (l.contents c).edges :=
      fun c he => Nat.lt_irrefl _ (h.edge_known he)
    apply h.edgesOnce.append fresh (if attached then receiver else none)
    intro c
    rw [contents_addEdge]
    cases attached with
    | false => simp
    | true =>
      by_cases hc : receiver = some c
      · simp [hc, Contents.addEdge]
      · simp [hc]
  subgraphsOnce := by
    simp only [contents_subgraphs_addEdge]
    exact h.subgraphsOnce
  blank c hc := by
    have hc' : ¬ l.Has c := fun hh => hc (hh.of_le (by simp) (by simp))
    rw [contents_addEdge, if_neg fun he => hc' (hr c he.2)]
    exact h.blank c hc'
  nodeListed c n hn := by
    rw [contents_nodes_addEdge] at hn
    rw [nodes_addEdge]
    exact h.nodeListed c n hn
  edgeListed e := by
    simp only [mem_edges_addEdge, edges_addEdge]
    constructor
    · rintro ⟨c, he | ⟨rfl, rfl, -⟩⟩
      · obtain ⟨source', target', hedge⟩ := (h.edgeListed e).mp ⟨c, he⟩
        exact ⟨source', target', by rw [List.getElem?_append_left (h.edge_known he), hedge]⟩
      · exact ⟨source, target, by simp⟩
    · rintro ⟨source', target', hedge⟩
      rcases getElem?_concat_cases hedge with hedge | ⟨hedge, hi⟩
      · obtain ⟨c, he⟩ := (h.edgeListed e).mpr ⟨source', target', hedge⟩
        exact ⟨c, .inl he⟩
      · have hattached : attached = true := by simpa using congrArg (·.2.2) hedge.symm
        obtain ⟨c, hc⟩ := Option.isSome_iff_exists.mp (ha hattached)
        exact ⟨c, .inr ⟨congrArg EdgeId.mk hi, hattached, hc⟩⟩
  childKnown c s hs := by
    rw [contents_subgraphs_addEdge] at hs
    rw [subgraphs_addEdge]
    exact h.childKnown c s hs
  childLater p s hs := by
    rw [contents_subgraphs_addEdge] at hs
    exact h.childLater p s hs
  unkeyed g := by
    rw [keys_addEdge]
    exact h.unkeyed g
  named s := by
    simp only [keys_addEdge, contents_nodes_addEdge, h.named s]
    exact List.map_congr_left fun n _ => (l.nodeName_addEdge receiver current _ _ _ n).symm
  ends i source' target' attached' he := by
    rw [edges_addEdge] at he
    rw [nodes_addEdge]
    rcases getElem?_concat_cases he with he | ⟨he, -⟩
    · exact h.ends i source' target' attached' he
    · obtain ⟨rfl, rfl, -⟩ := Prod.mk.inj he |>.imp_right Prod.mk.inj
      exact ⟨hs, ht⟩

theorem addSubgraph (h : l.WellFormed) (hr : ∀ c, receiver = some c → l.Has c) :
    (l.addSubgraph receiver).WellFormed where
  nodesOnce := by
    simp only [contents_nodes_addSubgraph]
    exact h.nodesOnce
  edgesOnce := by
    simp only [contents_edges_addSubgraph]
    exact h.edgesOnce
  subgraphsOnce := by
    have fresh : ∀ c, (⟨l.subgraphs⟩ : SubgraphId) ∉ (l.contents c).subgraphs :=
      fun c hs => Nat.lt_irrefl _ (h.childKnown c _ hs)
    apply h.subgraphsOnce.append fresh receiver
    intro c
    rw [contents_addSubgraph]
    split <;> rfl
  blank c hc := by
    have hc' : ¬ l.Has c := fun hh => hc (hh.of_le (Nat.le_succ _) (Nat.le_refl _))
    rw [contents_addSubgraph, if_neg fun he => hc' (hr c he)]
    exact h.blank c hc'
  nodeListed c n hn := by
    rw [contents_nodes_addSubgraph] at hn
    exact h.nodeListed c n hn
  edgeListed e := by
    simp only [contents_edges_addSubgraph]
    exact h.edgeListed e
  childKnown c s hs := by
    rcases (l.mem_subgraphs_addSubgraph receiver).mp hs with hs | ⟨rfl, -⟩
    · exact Nat.lt_succ_of_lt (h.childKnown c s hs)
    · exact Nat.lt_succ_self _
  childLater p s hs := by
    rcases (l.mem_subgraphs_addSubgraph receiver).mp hs with hs | ⟨rfl, hp⟩
    · exact h.childLater p s hs
    · exact hr _ hp
  unkeyed := h.unkeyed
  named s := by
    rw [contents_nodes_addSubgraph]
    exact h.named s
  ends := h.ends

theorem pushGraph (h : l.WellFormed) : l.pushGraph.WellFormed :=
  ⟨h.nodesOnce, h.edgesOnce, h.subgraphsOnce,
    fun c hc => h.blank c fun hh =>
      hc (hh.of_le (Nat.le_refl _) (Nat.le_succ _)),
    h.nodeListed, h.edgeListed, h.childKnown, h.childLater, h.unkeyed, h.named, h.ends⟩

end WellFormed

end Layout

end DotDiagram
