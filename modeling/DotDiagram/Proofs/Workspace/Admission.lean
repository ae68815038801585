import DotDiagram.Proofs.Workspace.Attachment
import DotDiagram.Proofs.Workspace.Rejection
import DotDiagram.Proofs.Workspace.Resolution

/-! Admission of nodes. A node is refused if it has two texts for its label, or else if its
name is in use where it would go, and for no other reason. A node that is refused leaves
nothing behind but the number of its generated name. -/

namespace DotDiagram

theorem innermost?_eq_none_iff {containers : List Container} :
    innermost? containers = none ↔ containers = [] := by
  rw [innermost?, Option.or_eq_none_iff, List.getLast?_eq_none_iff, List.getLast?_eq_none_iff]
  exact ⟨And.right, fun h => ⟨by rw [h]; rfl, h⟩⟩

namespace Workspace

variable {w : Workspace} {entries : List Entered} {spec : NodeSpec} {id : NodeId} {e : Error}

/-- The open graph claims the name or, while no graph is open, a node of the name stands in the
innermost open subgraph or below it. -/
def InUse (w : Workspace) (name : String) : Prop :=
  match w.ambient.graph?, w.ambient.subgraph? with
  | some g, _ => name ∈ (w.layout.claims g).names
  | none, some s => ∃ c, w.layout.Within (.subgraph s) c ∧
      ∃ n ∈ (w.layout.contents c).nodes, w.layout.nodeName n = name
  | none, none => False

theorem nameTaken_iff_inUse (hw : w.layout.WellFormed) (name : String) :
    w.nameTaken name = true ↔ w.InUse name := by
  unfold InUse
  cases hg : w.ambient.graph? with
  | some g => exact nameTaken_of_graph hg name
  | none =>
    cases hs : w.ambient.subgraph? with
    | some s => exact nameTaken_of_subgraph hw hg hs name
    | none =>
      rw [nameTaken_of_closed hg hs]
      exact iff_of_false Bool.false_ne_true id

theorem nameTaken_takeName (hw : w.layout.WellFormed) (name : Option String) (x : String) :
    (w.takeName name).2.nameTaken x = w.nameTaken x :=
  nameTaken_congr hw (w.ambient_takeName name) (w.layout_takeName name) x

theorem buildNode_of_conflict (h : spec.html.isSome = true ∧ spec.markdown.isSome = true) :
    w.buildNode spec = (.error .conflictingLabels, w) := by
  obtain ⟨body, hbody⟩ := Option.isSome_iff_exists.mp h.1
  obtain ⟨text, htext⟩ := Option.isSome_iff_exists.mp h.2
  have hdirect : spec.directAttrs = .error .conflictingLabels := by
    rw [NodeSpec.directAttrs, hbody, htext]
  rw [buildNode, hdirect]

/-- One text for the label at most leaves only the name to be refused for. -/
theorem buildNode_eq_error_iff (hw : w.layout.WellFormed)
    (h : ¬ (spec.html.isSome = true ∧ spec.markdown.isSome = true)) :
    (w.buildNode spec).1 = .error e ↔
      e = .duplicateNode (w.takeName spec.name).1 ∧
        w.nameTaken (w.takeName spec.name).1 = true := by
  have hlabel : spec.html = none ∨ spec.markdown = none := by
    rwa [not_and_or, Option.not_isSome_iff_eq_none, Option.not_isSome_iff_eq_none] at h
  rw [buildNode_fst hlabel, nameTaken_takeName hw]
  split
  · next ht => simp [ht, eq_comm]
  · next ht => simp [ht]

theorem buildNode_eq_conflict_iff (hw : w.layout.WellFormed) :
    (w.buildNode spec).1 = .error .conflictingLabels ↔
      spec.html.isSome = true ∧ spec.markdown.isSome = true := by
  refine ⟨fun he => ?_, fun h => by rw [buildNode_of_conflict h]⟩
  by_contra h
  cases ((buildNode_eq_error_iff hw h).mp he).1

/-- All that a refused node can do is to use up a number. -/
theorem eq_or_numbered_of_buildNode (he : (w.buildNode spec).1 = .error e) :
    (w.buildNode spec).2 = w ∨
      spec.name = none ∧ (w.buildNode spec).2 = { w with nodeNumber := w.nodeNumber + 1 } := by
  unfold buildNode at he ⊢
  cases hdirect : spec.directAttrs with
  | error e => exact .inl rfl
  | ok direct =>
    rw [hdirect] at he
    dsimp only at he ⊢
    split at he
    · next ht =>
      rw [if_pos ht]
      cases hname : spec.name with
      | some name => exact .inl rfl
      | none => exact .inr ⟨rfl, rfl⟩
    · cases he

theorem Tended.listedOnce_buildNode (h : w.Tended entries) (hok : (w.buildNode spec).1 = .ok id) :
    ListedOnce (fun c => ((w.buildNode spec).2.layout.contents c).nodes) id ↔
      w.ambient.receiver?.isSome = true := by
  have hbuilt := (h.act (.draw (.node spec))).1
  rw [hbuilt.wellFormed.nodesOnce.listedOnce_iff]
  constructor
  · rintro ⟨c, hc⟩
    have hattached := hbuilt.node_attached hc
    rwa [attached_buildNode h.anchored hok, Option.some.injEq] at hattached
  · intro hopen
    obtain ⟨c, hc⟩ := Option.isSome_iff_exists.mp hopen
    rcases h.anchored.layout_buildNode spec with ⟨⟨e, he⟩, -⟩ | ⟨-, hid, hl⟩
    · cases he.symm.trans hok
    · cases hid.symm.trans hok
      refine ⟨c, ?_⟩
      rw [hl, Layout.contents_addNode, if_pos hc, length_nodes_layout]
      exact Layout.self_mem_place h.wellFormed c _ _

/-- What comes of building a node while these containers are open. -/
structure Admits (w : Workspace) (containers : List Container) (spec : NodeSpec) : Prop where
  conflict : (w.buildNode spec).1 = .error .conflictingLabels ↔
    spec.html.isSome = true ∧ spec.markdown.isSome = true
  duplicate : ¬ (spec.html.isSome = true ∧ spec.markdown.isSome = true) →
    ∀ e, (w.buildNode spec).1 = .error e ↔
      e = .duplicateNode (w.takeName spec.name).1 ∧ w.InUse (w.takeName spec.name).1
  foretold : w.nameTaken (w.takeName spec.name).1 = true ↔ w.InUse (w.takeName spec.name).1
  refused : ∀ e, (w.buildNode spec).1 = .error e → (w.buildNode spec).2 = w ∨
    spec.name = none ∧ (w.buildNode spec).2 = { w with nodeNumber := w.nodeNumber + 1 }
  admitted : ∀ id, (w.buildNode spec).1 = .ok id → ∃ node,
    (w.buildNode spec).2.node? id = some node ∧ node.name = (w.takeName spec.name).1 ∧
      (node.attached = true ↔ containers ≠ []) ∧
      (ListedOnce (fun c => ((w.buildNode spec).2.layout.contents c).nodes) id ↔ containers ≠ [])

end Workspace

namespace Session

variable {s : Session}

theorem node_admitted (hs : Reachable s) (spec : NodeSpec) :
    s.workspace.Admits (openContainers s.entries) spec := by
  have ht := tended_of_reachable hs
  have hopen : s.workspace.ambient.receiver?.isSome = true ↔ openContainers s.entries ≠ [] := by
    rw [ht.holds.receiver?_eq, Option.isSome_iff_ne_none, Ne, innermost?_eq_none_iff]
  have htaken := Workspace.nameTaken_iff_inUse ht.wellFormed
  constructor
  · exact Workspace.buildNode_eq_conflict_iff ht.wellFormed
  · intro hlabel e
    rw [Workspace.buildNode_eq_error_iff ht.wellFormed hlabel, htaken]
  · exact htaken _
  · exact fun e he => Workspace.eq_or_numbered_of_buildNode he
  · intro id hok
    obtain ⟨direct, -, hnode⟩ := Workspace.node?_buildNode hok
    refine ⟨_, hnode, rfl, ?_, (ht.listedOnce_buildNode hok).trans hopen⟩
    rw [← hopen, Workspace.containerOpen_eq]

/-- A subgraph is open without its graph, and has a node of the name. -/
def occupied : Session := detached.perform (.node (.named "a"))

theorem occupied_admitted :
    Reachable occupied ∧ (occupied.workspace.buildNode (.named "a")).1 = .error (.duplicateNode "a") ∧
      occupied.workspace.InUse "a" ∧ (occupied.workspace.buildNode .anonymous).1 = .ok ⟨1⟩ ∧
      occupied.workspace.Admits [.subgraph ⟨0⟩] (.named "a") ∧
      occupied.workspace.Admits [.subgraph ⟨0⟩] .anonymous := by
  have hs : Reachable occupied := detached_reachable.tail (.operation _ trivial)
  have hnamed := node_admitted hs (.named "a")
  have htaken : occupied.workspace.nameTaken "a" = true := rfl
  exact ⟨hs, rfl, hnamed.foretold.mp htaken, rfl, hnamed, node_admitted hs .anonymous⟩

end Session

end DotDiagram
