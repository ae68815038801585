import DotDiagram.Proofs.Workspace.Draft
import DotDiagram.Proofs.Workspace.Record
import DotDiagram.Proofs.Workspace.Rows

/-! Mind maps mirror their outlines. The rows of an outline come to stand in the open graph, up
to the first whose label is taken. Edges are never left out, for the label an edge ends at is
new. -/

namespace DotDiagram

namespace Workspace

variable {w w' : Workspace}

/-- In the workspace `w'` the rows have come to stand in the graph, on top of `w`. -/
structure Planted (g : GraphId) (rows : List Row) (w w' : Workspace) : Prop where
  ambient : w'.ambient = w.ambient
  nodes : w'.nodes.toList = w.nodes.toList ++ rows.map (Row.toNode w.ambient)
  edges : w'.edges.toList = w.edges.toList ++ rows.filterMap (Row.toEdge? w.ambient)
  subgraphs : w'.subgraphs = w.subgraphs
  nodeNumber : w'.nodeNumber = w.nodeNumber
  others : ∀ other, other ≠ g → w'.graph? other = w.graph? other
  graph : ∀ graph, w.graph? g = some graph → ∃ pairs : List (String × String),
    pairs.map Prod.snd = ((rows.filter fun row => row.parent.isSome).map Row.label).reverse ∧
    w'.graph? g = some { graph with
      nodes := graph.nodes ++ rows.map Row.node
      edges := graph.edges ++ (List.range' w.edges.size
        (rows.filterMap (Row.toEdge? w.ambient)).length).map EdgeId.mk
      claimedNodes := (rows.map Row.label).reverse ++ graph.claimedNodes
      claimedEdges := pairs ++ graph.claimedEdges }

namespace Planted

variable {w'' : Workspace} {g : GraphId} {row : Row} {rows more : List Row}

theorem refl (g : GraphId) (w : Workspace) : Planted g [] w w where
  ambient := rfl
  nodes := (List.append_nil _).symm
  edges := (List.append_nil _).symm
  subgraphs := rfl
  nodeNumber := rfl
  others _ _ := rfl
  graph graph h := ⟨[], rfl, by simpa using h⟩

theorem trans (h : Planted g rows w w') (h' : Planted g more w' w'') :
    Planted g (rows ++ more) w w'' := by
  have hsize : w'.edges.size = w.edges.size + (rows.filterMap (Row.toEdge? w.ambient)).length := by
    rw [← Array.length_toList, h.edges, List.length_append, Array.length_toList]
  constructor
  · rw [h'.ambient, h.ambient]
  · rw [h'.nodes, h.nodes, h.ambient, List.map_append, List.append_assoc]
  · rw [h'.edges, h.edges, h.ambient, List.filterMap_append, List.append_assoc]
  · rw [h'.subgraphs, h.subgraphs]
  · rw [h'.nodeNumber, h.nodeNumber]
  · intro other hne
    rw [h'.others other hne, h.others other hne]
  · intro graph hg
    obtain ⟨pairs, hpairs, hgrown⟩ := h.graph graph hg
    obtain ⟨pairs', hpairs', hgrown'⟩ := h'.graph _ hgrown
    refine ⟨pairs' ++ pairs, ?_, ?_⟩
    · rw [List.map_append, hpairs, hpairs', List.filter_append, List.map_append,
        List.reverse_append]
    · rw [hgrown', hsize, h.ambient, List.filterMap_append, List.length_append,
        ← List.range'_append_1]
      simp only [List.map_append, List.reverse_append, List.append_assoc]

end Planted

section

variable {g : GraphId} {graph : Graph} {row : Row}

theorem Planted.branch {v : Workspace} (h : Planted g [{ row with parent := none }] w v)
    (hg : w.ambient.graph? = some g) (hsub : w.ambient.subgraph? = none)
    (hgraph : w.graph? g = some graph) (hnode : row.node = ⟨w.nodes.size⟩)
    (hfree : ∀ pair ∈ graph.claimedEdges, pair.2 ≠ row.label) {parent : NodeId}
    (hp : row.parent = some parent) :
    Planted g [row] w (v.buildEdge ⟨parent, row.node, [branchEdge], .empty⟩).2 := by
  have hedges : v.edges = w.edges := Array.toList_inj.mp (h.edges.trans (List.append_nil _))
  have hname : v.nodeName row.node = row.label := by
    have hfound : v.node? row.node = some (row.toNode w.ambient) := by
      rw [hnode, node?, ← Array.getElem?_toList, h.nodes]
      simp
      rfl
    rw [nodeName, hfound]
    rfl
  obtain ⟨pairs, hpairs, hv⟩ := h.graph graph hgraph
  obtain rfl : pairs = [] := List.map_eq_nil_iff.mp hpairs
  let pair := (v.nodeName parent, row.label)
  have hpair : (v.nodeName parent, v.nodeName row.node) = pair := by rw [hname]
  have hedge := buildEdge_of_new (h.ambient ▸ hg) (h.ambient ▸ hsub) hv
    ⟨parent, row.node, [branchEdge], .empty⟩ hpair fun hp => hfree pair hp rfl
  have hbranch : [row].filterMap (Row.toEdge? w.ambient) =
      [⟨parent, row.node, (w.ambient.edgeLayers [branchEdge] .empty).resolve, true⟩] := by
    simp [Row.toEdge?, hp]
  refine ⟨?_, ?_, ?_, ?_, ?_, ?_, ?_⟩
  · rw [ambient_buildEdge, h.ambient]
  · rw [nodes_buildEdge]
    exact h.nodes
  · rw [hedge, hbranch, h.ambient, hedges]
    exact Array.toList_push
  · rw [hedge]
    exact h.subgraphs
  · rw [hedge]
    exact h.nodeNumber
  · intro other hne
    rw [hedge, graph?_modifyGraph_eq_ite, if_neg hne, ← h.others other hne]
    rfl
  · intro found hfound
    obtain rfl : graph = found := Option.some.inj (hgraph.symm.trans hfound)
    refine ⟨[pair], by simp [hp, pair], ?_⟩
    rw [hedge, graph?_modifyGraph_eq_ite, if_pos rfl, hbranch]
    refine (congrArg (Option.map _) hv).trans ?_
    simp [Row.toEdge?, Row.label, hedges]

end

/-- The labels differ, and none is claimed yet. -/
def Fresh (claimed labels : List String) : Prop :=
  labels.Nodup ∧ ∀ label ∈ labels, label ∉ claimed

theorem fresh_cons {claimed labels : List String} {label : String} :
    Fresh claimed (label :: labels) ↔ label ∉ claimed ∧ Fresh (label :: claimed) labels := by
  simp only [Fresh, List.nodup_cons, List.forall_mem_cons]
  constructor
  · rintro ⟨⟨hl, hn⟩, hc, hrest⟩
    refine ⟨hc, hn, fun other ho => ?_⟩
    rw [List.mem_cons, not_or]
    exact ⟨fun he => hl (he ▸ ho), hrest other ho⟩
  · rintro ⟨hc, hn, hrest⟩
    refine ⟨⟨fun hl => hrest label hl (.head _), hn⟩, hc, fun other ho hmem => ?_⟩
    exact hrest other ho (.tail _ hmem)

/-- Rows are planted until one is met whose label is claimed or repeats an earlier one. -/
inductive Outcome (g : GraphId) (claimed : List String) (rows : List Row) (w : Workspace) :
    Except Error Unit × Workspace → Prop where
  | complete {w' : Workspace} (fresh : Fresh claimed (rows.map Row.label))
      (planted : Planted g rows w w') : Outcome g claimed rows w (.ok (), w')
  | stopped {w' : Workspace} {before after : List Row} {row : Row}
      (split : rows = before ++ row :: after) (fresh : Fresh claimed (before.map Row.label))
      (taken : row.label ∈ before.map Row.label ∨ row.label ∈ claimed)
      (planted : Planted g before w w') :
      Outcome g claimed rows w (.error (.duplicateNode row.label), w')

namespace Outcome

variable {g : GraphId} {claimed : List String} {row : Row} {rows : List Row}
  {r : Except Error Unit × Workspace}

theorem cons (hnew : row.label ∉ claimed) (h : Planted g [row] w w')
    (h' : Outcome g (row.label :: claimed) rows w' r) : Outcome g claimed (row :: rows) w r := by
  cases h' with
  | complete fresh planted => exact .complete (fresh_cons.mpr ⟨hnew, fresh⟩) (h.trans planted)
  | @stopped _ before after other split fresh taken planted =>
    have hsplit : row :: rows = (row :: before) ++ other :: after := by
      rw [split, List.cons_append]
    refine .stopped hsplit (fresh_cons.mpr ⟨hnew, fresh⟩) ?_ (h.trans planted)
    rcases taken with ht | ht
    · exact .inl (.tail _ ht)
    · rcases List.mem_cons.mp ht with heq | ht
      · exact .inl (heq ▸ .head _)
      · exact .inr ht

end Outcome

end Workspace

namespace Session

end Session

end DotDiagram
