import Mathlib.Data.List.Basic
import DotDiagram.Proofs.Workspace.Orderly

/-! Reception. What is made goes to the subgraph that was opened last among those still
open, or to the open graph while no subgraph is open, and nowhere else. A graph that was
opened while a subgraph stood open is thus passed over, though it was opened later. -/

namespace DotDiagram

def Opening.container? : Opening → Option Container
  | .graph id => some (.graph id)
  | .subgraph id => some (.subgraph id)
  | .nodeStyle _ | .edgeStyle _ | .theme _ => none

/-- The containers that are open, in the order of opening. -/
def openContainers (entries : List Entered) : List Container :=
  entries.filterMap fun e => e.opening.container?

/-- The last one that is a subgraph, or else the last one. -/
def innermost? (containers : List Container) : Option Container :=
  (containers.filter Container.isSubgraph).getLast?.or containers.getLast?

theorem innermost?_eq_getLast? {containers : List Container} {c : Container}
    (hlast : containers.getLast? = some c)
    (h : c.isSubgraph = true ∨ ∀ d ∈ containers, d.isSubgraph = false) :
    innermost? containers = some c := by
  unfold innermost?
  rcases h with hc | hnone
  · obtain ⟨before, rfl⟩ := List.getLast?_eq_some_iff.mp hlast
    rw [List.filter_append, List.filter_singleton, hc, cond_true, List.getLast?_concat]
    rfl
  · have hnil : containers.filter Container.isSubgraph = [] := by
      rw [List.filter_eq_nil_iff]
      intro d hd
      rw [hnone d hd]
      exact Bool.false_ne_true
    rw [hnil, hlast]
    rfl

section

variable {entries : List Entered}

theorem filter_openContainers (entries : List Entered) :
    (openContainers entries).filter Container.isSubgraph =
      (entries.filterMap fun e => e.opening.subgraph?).map .subgraph := by
  rw [openContainers, List.filter_filterMap, List.map_filterMap]
  apply List.filterMap_congr
  intro e _
  cases e.opening <;> rfl

/-- While no subgraph is open, only graphs are. -/
theorem openContainers_of_no_subgraph (h : (entries.filterMap fun e => e.opening.subgraph?) = []) :
    openContainers entries = (entries.filterMap fun e => e.opening.graph?).map .graph := by
  rw [openContainers, List.map_filterMap]
  apply List.filterMap_congr
  intro e he
  have hnone := List.filterMap_eq_nil_iff.mp h e he
  cases ho : e.opening with
  | subgraph id => simp [ho, Opening.subgraph?] at hnone
  | graph _ | nodeStyle _ | edgeStyle _ | theme _ => rfl

theorem head?_stackOf {α : Type} (pick : Opening → Option α) (entries : List Entered) :
    (stackOf pick entries).head?.map Entry.value =
      (entries.filterMap fun e => pick e.opening).getLast? := by
  rw [stackOf, List.head?_reverse, ← List.getLast?_map, List.map_filterMap]
  congr 1
  apply List.filterMap_congr
  intro e _
  cases hp : pick e.opening <;> simp [Entered.entry?, hp]

theorem Ambient.Holds.receiver?_eq {a : Ambient} (h : a.Holds entries) :
    a.receiver? = innermost? (openContainers entries) := by
  have hs : a.subgraph? = (entries.filterMap fun e => e.opening.subgraph?).getLast? := by
    rw [Ambient.subgraph?, h.subgraphs, head?_stackOf]
  have hg : a.graph? = (entries.filterMap fun e => e.opening.graph?).getLast? := by
    rw [Ambient.graph?, h.graphs, head?_stackOf]
  rw [Ambient.receiver?, innermost?, filter_openContainers, List.getLast?_map, hs, hg]
  cases hlast : (entries.filterMap fun e => e.opening.subgraph?).getLast? with
  | some id => rfl
  | none =>
    have hnil := List.getLast?_eq_none_iff.mp hlast
    rw [openContainers_of_no_subgraph hnil, List.getLast?_map]

end

def Contents.addNode (id : NodeId) (c : Contents) : Contents := { c with nodes := c.nodes ++ [id] }

namespace Workspace

/-- What is made and attached goes to the end of what the receiver lists, and is listed by
nothing else. Left open is only what becomes of a node whose name the receiver lists. -/
structure Receives (w : Workspace) (receiver : Option Container) : Prop where
  node : ∀ (spec : NodeSpec) (id : NodeId), (w.buildNode spec).1 = .ok id →
    ((w.buildNode spec).2.node? id).map Node.attached = some receiver.isSome ∧
    (∀ c, receiver ≠ some c → (w.buildNode spec).2.layout.contents c = w.layout.contents c) ∧
    ∀ c, receiver = some c → (w.takeName spec.name).1 ∉ w.layout.keys c →
      (w.buildNode spec).2.layout.contents c = (w.layout.contents c).addNode id
  edge : ∀ spec : EdgeSpec, ∃ attached,
    ((w.buildEdge spec).2.edge? (w.buildEdge spec).1).map Edge.attached = some attached ∧
    (attached = true → receiver.isSome = true) ∧
    ∀ c, (w.buildEdge spec).2.layout.contents c =
      if attached = true ∧ receiver = some c then
        (w.layout.contents c).addEdge (w.buildEdge spec).1
      else w.layout.contents c
  subgraph : ∀ (spec : SubgraphSpec) (c : Container),
    (w.buildSubgraph spec).2.layout.contents c =
      if receiver = some c then (w.layout.contents c).addSubgraph (w.buildSubgraph spec).1
      else w.layout.contents c

theorem Anchored.receives {w : Workspace} (h : w.Anchored) :
    w.Receives w.ambient.receiver? := by
  constructor
  · intro spec id hok
    refine ⟨attached_buildNode h hok, ?_⟩
    rcases h.layout_buildNode spec with ⟨⟨e, he⟩, -⟩ | ⟨-, hid, hl⟩
    · cases he.symm.trans hok
    · cases hid.symm.trans hok
      rw [hl]
      constructor
      · intro c hc
        rw [Layout.contents_addNode, if_neg hc]
      · intro c hc hnew
        rw [Layout.contents_addNode, if_pos hc, Layout.place_of_not_mem _ _ hnew,
          length_nodes_layout]
        rfl
  · intro spec
    obtain ⟨hid, hl⟩ := h.layout_buildEdge spec
    refine ⟨_, attached_buildEdge h spec, fun hattached => ?_, fun c => ?_⟩
    · rw [Bool.and_eq_true, containerOpen_eq] at hattached
      exact hattached.1
    · rw [hl, Layout.contents_addEdge, hid, length_edges_layout]
  · intro spec c
    have hid : (w.buildSubgraph spec).1 = ⟨w.layout.subgraphs⟩ := by
      unfold buildSubgraph
      cases spec.name <;> rfl
    rw [h.layout_buildSubgraph spec, Layout.contents_addSubgraph, hid]

end Workspace

namespace Session

variable {s : Session}

/-- The receiver is the container that was opened last, if that is a subgraph or if no
subgraph is open. -/
theorem made_received (hs : Reachable s) :
    s.workspace.Receives (innermost? (openContainers s.entries)) ∧
      (∀ c, (openContainers s.entries).getLast? = some c →
        c.isSubgraph = true ∨ (∀ d ∈ openContainers s.entries, d.isSubgraph = false) →
          innermost? (openContainers s.entries) = some c) ∧
      (openContainers s.entries = [] → innermost? (openContainers s.entries) = none) := by
  have ht := tended_of_reachable hs
  refine ⟨?_, fun c hlast h => innermost?_eq_getLast? hlast h, fun h => by rw [h]; rfl⟩
  rw [← ht.holds.receiver?_eq]
  exact ht.anchored.receives

theorem furnished_received :
    Reachable furnished ∧ furnished.workspace.Receives (some (.subgraph ⟨0⟩)) :=
  ⟨Orderly.reachable furnished_orderly, (made_received (Orderly.reachable furnished_orderly)).1⟩

/-- The subgraph was opened before the graph, and is still open. -/
def inverted : Session :=
  (((start.perform (.subgraph (.named "s"))).perform (.graph (.plain "g"))).opened
    (.subgraph ⟨0⟩)).opened (.graph ⟨0⟩)

theorem inverted_passed_over :
    Reachable inverted ∧ (openContainers inverted.entries).getLast? = some (.graph ⟨0⟩) ∧
      (inverted.workspace.buildNode (.named "a")).1 = .ok ⟨0⟩ ∧
      ((inverted.perform (.node (.named "a"))).workspace.layout.contents (.graph ⟨0⟩)).nodes =
        [] ∧
      ((inverted.perform (.node (.named "a"))).workspace.layout.contents (.subgraph ⟨0⟩)).nodes =
        [⟨0⟩] := by
  have hsub : Step start (start.perform (.subgraph (.named "s"))) := .operation _ trivial
  have hgraph : Step (start.perform (.subgraph (.named "s"))) _ :=
    .operation (.graph (.plain "g")) trivial
  have hks : (Opening.subgraph ⟨0⟩).Known ((start.perform (.subgraph (.named "s"))).perform
      (.graph (.plain "g"))).workspace := Nat.zero_lt_one
  have hopen := Step.opened (opens_opened hks fun h => by cases h)
  have hkg : (Opening.graph ⟨0⟩).Known (((start.perform (.subgraph (.named "s"))).perform
      (.graph (.plain "g"))).opened (.subgraph ⟨0⟩)).workspace := Nat.zero_lt_one
  have hopen' := Step.opened (opens_opened hkg fun _ => rfl)
  refine ⟨?_, rfl, rfl, rfl, rfl⟩
  exact (((Relation.ReflTransGen.single hsub).tail hgraph).tail hopen).tail hopen'

end Session

end DotDiagram
