import DotDiagram.Proofs.Workspace.Orderly

/-! Attachment. Edges that are attached stay where they are, whatever is opened and
dropped. In orderly sessions so do nodes; in others one may take the place of another that
its subgraph got while it was open alone. -/

namespace DotDiagram

/-- Exactly one place of all containers holds it. -/
def ListedOnce {α : Type} (lists : Container → List α) (a : α) : Prop :=
  ∃ (c : Container) (i : Nat), (lists c)[i]? = some a ∧
    ∀ (d : Container) (j : Nat), (lists d)[j]? = some a → d = c ∧ j = i

theorem Once.listedOnce_iff {α : Type} {lists : Container → List α} (h : Once lists) (a : α) :
    ListedOnce lists a ↔ ∃ c, a ∈ lists c := by
  constructor
  · rintro ⟨c, i, hi, -⟩
    exact ⟨c, List.mem_of_getElem? hi⟩
  · rintro ⟨c, hc⟩
    obtain ⟨i, hi⟩ := List.mem_iff_getElem?.mp hc
    exact ⟨c, i, hi, fun d j hj => h d c j i a hj hi⟩

theorem Layout.WellFormed.has_of_mem {l : Layout} (h : l.WellFormed) {c : Container} {n : NodeId}
    (hn : n ∈ (l.contents c).nodes) : l.Has c := by
  by_cases hc : l.Has c
  · exact hc
  · rw [h.blank c hc] at hn
    cases hn

namespace Workspace

variable {w : Workspace} {entries : List Entered}

theorem Tended.edge_listedOnce_iff (h : w.Tended entries) (e : EdgeId) :
    ListedOnce (fun c => (w.layout.contents c).edges) e ↔
      (w.edge? e).map Edge.attached = some true := by
  rw [h.wellFormed.edgesOnce.listedOnce_iff, h.wellFormed.edgeListed e, edges_getElem?_layout]
  cases w.edge? e <;> simp

theorem Tended.node_attached (h : w.Tended entries) {c : Container} {n : NodeId}
    (hn : n ∈ (w.layout.contents c).nodes) : (w.node? n).map Node.attached = some true := by
  obtain ⟨name, hname⟩ := h.wellFormed.nodeListed c n hn
  rw [nodes_getElem?_layout] at hname
  obtain ⟨node, hnode, hpair⟩ := Option.map_eq_some_iff.mp hname
  have hattached : node.attached = true := congrArg Prod.snd hpair
  rw [hnode, Option.map_some, hattached]

theorem Settled.node_listedOnce_iff (h : w.Settled entries) (n : NodeId) :
    ListedOnce (fun c => (w.layout.contents c).nodes) n ↔
      (w.node? n).map Node.attached = some true := by
  rw [h.wellFormed.nodesOnce.listedOnce_iff]
  constructor
  · rintro ⟨c, hn⟩
    exact h.node_attached hn
  · intro hattached
    obtain ⟨node, hnode, hnode'⟩ := Option.map_eq_some_iff.mp hattached
    apply h.ledgered.listed n node.name
    rw [nodes_getElem?_layout, hnode, Option.map_some, hnode']

end Workspace

namespace Session

variable {s : Session}

/-- What is attached is listed at one place, and lists only grow at their ends. Of nodes
this holds as long as the session is orderly. -/
theorem attachment_lasts (hs : Reachable s) :
    ((∀ e, ListedOnce (fun c => (s.workspace.layout.contents c).edges) e ↔
        (s.workspace.edge? e).map Edge.attached = some true) ∧
      ∀ t, Step s t → s.workspace.layout.Extended t.workspace.layout) ∧
    (Orderly s →
      (∀ n, ListedOnce (fun c => (s.workspace.layout.contents c).nodes) n ↔
        (s.workspace.node? n).map Node.attached = some true) ∧
      ∀ t, OrderlyStep s t → ∀ c,
        (s.workspace.layout.contents c).nodes <+: (t.workspace.layout.contents c).nodes) := by
  have hsound := Sound.of_reachable hs
  have ht := tended_of_reachable hs
  refine ⟨⟨ht.edge_listedOnce_iff, fun t hst => (hsound.tended_step ht hst).2⟩, fun ho => ?_⟩
  have hsettled := settled_of_orderly ho
  exact ⟨hsettled.node_listedOnce_iff, fun t hst => (hsound.settled_step hsettled hst).2⟩

theorem furnished_attachment :
    Orderly furnished ∧
      ListedOnce (fun c => (furnished.workspace.layout.contents c).edges) ⟨0⟩ ∧
      ListedOnce (fun c => (furnished.workspace.layout.contents c).nodes) ⟨1⟩ := by
  obtain ⟨⟨hedge, -⟩, hnode⟩ := attachment_lasts (Orderly.reachable furnished_orderly)
  exact ⟨furnished_orderly, (hedge ⟨0⟩).mpr rfl, ((hnode furnished_orderly).1 ⟨1⟩).mpr rfl⟩

/-- In the open graph the subgraph gets another node of the name that it had. -/
def displaced : Session :=
  (reopened.opened (.subgraph ⟨0⟩)).perform (.node (.named "a"))

theorem displaced_lost :
    Reachable displaced ∧
      (reopened.workspace.layout.contents (.subgraph ⟨0⟩)).nodes = [⟨0⟩] ∧
      (displaced.workspace.layout.contents (.subgraph ⟨0⟩)).nodes = [⟨1⟩] ∧
      (displaced.workspace.node? ⟨0⟩).map Node.attached = some true ∧
      ¬ ListedOnce (fun c => (displaced.workspace.layout.contents c).nodes) ⟨0⟩ := by
  have hk : (Opening.subgraph ⟨0⟩).Known reopened.workspace := Nat.zero_lt_one
  have hopen := Step.opened (opens_opened hk fun h => by cases h)
  have hreachable : Reachable displaced :=
    (reopened_reachable.tail hopen).tail (.operation (.node (.named "a")) trivial)
  refine ⟨hreachable, rfl, rfl, rfl, ?_⟩
  -- There are one graph and one subgraph, and neither lists the first node.
  rintro ⟨c, i, hi, -⟩
  have hn : ⟨0⟩ ∈ (displaced.workspace.layout.contents c).nodes := List.mem_of_getElem? hi
  have hc := (tended_of_reachable hreachable).wellFormed.has_of_mem hn
  have hgraph : (displaced.workspace.layout.contents (.graph ⟨0⟩)).nodes = [] := rfl
  have hsub : (displaced.workspace.layout.contents (.subgraph ⟨0⟩)).nodes = [⟨1⟩] := rfl
  cases c with
  | graph id =>
    obtain rfl : id = ⟨0⟩ := congrArg GraphId.mk (Nat.lt_one_iff.mp hc)
    rw [hgraph] at hn
    cases hn
  | subgraph id =>
    obtain rfl : id = ⟨0⟩ := congrArg SubgraphId.mk (Nat.lt_one_iff.mp hc)
    rw [hsub] at hn
    cases List.mem_singleton.mp hn

end Session

end DotDiagram
