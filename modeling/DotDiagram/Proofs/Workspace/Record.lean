import DotDiagram.Proofs.Workspace.Orderly

/-! The record of pairs. In any session, whatever is opened and dropped, a graph claims just
the pairs of names that edges were made between while it was open. What subgraphs were open
then, and whether the edges were listed, makes no difference. -/

namespace DotDiagram

namespace Layout

/-- From `l` to `l'` no claim is lost, and the open graph comes to claim the pairs of the
edges made meanwhile, and no others. -/
structure Recorded (current : Option GraphId) (l l' : Layout) : Prop where
  edges : l.edges.length ≤ l'.edges.length
  keys : ∀ e : EdgeId, e.index < l.edges.length → l'.edgeKey? e = l.edgeKey? e
  kept : ∀ g, ∀ pair ∈ (l.claims g).pairs, pair ∈ (l'.claims g).pairs
  covered : ∀ g, current = some g → ∀ e : EdgeId, ¬ e.index < l.edges.length →
    e.index < l'.edges.length → ∃ pair ∈ (l'.claims g).pairs, l'.edgeKey? e = some pair
  backed : ∀ g, ∀ pair ∈ (l'.claims g).pairs, pair ∈ (l.claims g).pairs ∨
    current = some g ∧ ∃ e : EdgeId, ¬ e.index < l.edges.length ∧ e.index < l'.edges.length ∧
      l'.edgeKey? e = some pair

theorem known_of_edgeKey? {l : Layout} {e : EdgeId} {pair : String × String}
    (h : l.edgeKey? e = some pair) : e.index < l.edges.length := by
  obtain ⟨edge, he, -⟩ := Option.map_eq_some_iff.mp h
  exact (List.getElem?_eq_some_iff.mp he).1

namespace Recorded

variable {current : Option GraphId} {l l' l'' : Layout}

theorem of_no_edges (he : l'.edges = l.edges) (hk : ∀ e, l'.edgeKey? e = l.edgeKey? e)
    (hc : ∀ g, (l'.claims g).pairs = (l.claims g).pairs) : Recorded current l l' := by
  refine ⟨Nat.le_of_eq (congrArg List.length he.symm), fun e _ => hk e,
    fun g pair hp => by rwa [hc], ?_, ?_⟩
  · intro g _ e hnew hmade
    rw [he] at hmade
    exact absurd hmade hnew
  · intro g pair hp
    rw [hc] at hp
    exact .inl hp

theorem refl (current : Option GraphId) (l : Layout) : Recorded current l l :=
  of_no_edges rfl (fun _ => rfl) fun _ => rfl

theorem trans (h : Recorded current l l') (h' : Recorded current l' l'') :
    Recorded current l l'' := by
  refine ⟨Nat.le_trans h.edges h'.edges, ?_, fun g pair hp => h'.kept g pair (h.kept g pair hp),
    ?_, ?_⟩
  · intro e he
    rw [h'.keys e (Nat.lt_of_lt_of_le he h.edges), h.keys e he]
  · intro g hg e hnew hmade
    by_cases hmid : e.index < l'.edges.length
    · obtain ⟨pair, hp, hk⟩ := h.covered g hg e hnew hmid
      exact ⟨pair, h'.kept g pair hp, (h'.keys e hmid).trans hk⟩
    · exact h'.covered g hg e hmid hmade
  · intro g pair hp
    rcases h'.backed g pair hp with hp | ⟨hg, e, hnew, hmade, hk⟩
    · rcases h.backed g pair hp with hp | ⟨hg, e, hnew, hmade, hk⟩
      · exact .inl hp
      · exact .inr ⟨hg, e, hnew, Nat.lt_of_lt_of_le hmade h'.edges, (h'.keys e hmade).trans hk⟩
    · exact .inr ⟨hg, e, fun he => hnew (Nat.lt_of_lt_of_le he h.edges), hmade, hk⟩

end Recorded

end Layout

namespace Workspace

variable {permitted : Workspace → Opening → Prop} {w w' : Workspace} {entries : List Entered}
  {g : GraphId}

theorem recorded_buildNode (ha : w.Anchored) (hw : w.layout.WellFormed) (spec : NodeSpec)
    (current : Option GraphId) :
    Layout.Recorded current w.layout (w.buildNode spec).2.layout := by
  rcases ha.layout_buildNode spec with ⟨-, hl⟩ | ⟨-, -, hl⟩
  · rw [hl]
    exact .refl current w.layout
  · rw [hl]
    exact .of_no_edges (Layout.edges_addNode _ _ _ _) (fun _ => Layout.edgeKey?_addNode hw)
      fun _ => Layout.pairs_addNode

theorem recorded_buildEdge (ha : w.Anchored) (spec : EdgeSpec) :
    Layout.Recorded w.ambient.graph? w.layout (w.buildEdge spec).2.layout := by
  have hl := (ha.layout_buildEdge spec).2
  -- With a graph open an edge is left out only because the pair is claimed.
  have hclaimed : ∀ g, w.ambient.graph? = some g →
      (w.containerOpen && !w.pairTaken (w.nodeName spec.source, w.nodeName spec.target)) = false →
      (w.nodeName spec.source, w.nodeName spec.target) ∈ (w.layout.claims g).pairs := by
    intro g hg hout
    have hopen : w.containerOpen = true := by simp [containerOpen, hg]
    rw [hopen, Bool.true_and, Bool.not_eq_false'] at hout
    exact (pairTaken_of_graph hg _).mp hout
  rw [hl]
  generalize (w.containerOpen && !w.pairTaken (w.nodeName spec.source, w.nodeName spec.target)) =
    attached at hclaimed
  simp only [← nodeName_layout] at hclaimed
  refine ⟨by simp, fun e he => Layout.edgeKey?_addEdge he, ?_, ?_, ?_⟩
  · exact fun g pair hp => Layout.mem_pairs_addEdge.mpr (.inl hp)
  · intro g hg e hnew hmade
    have hlast : e = ⟨w.layout.edges.length⟩ := by
      obtain ⟨i⟩ := e
      simp only [Layout.edges_addEdge, List.length_append, List.length_singleton] at hmade hnew
      exact congrArg EdgeId.mk (by omega)
    rw [hlast]
    refine ⟨_, ?_, Layout.edgeKey?_addEdge_new⟩
    cases attached with
    | true => exact Layout.mem_pairs_addEdge.mpr (.inr ⟨rfl, rfl, hg⟩)
    | false => exact Layout.mem_pairs_addEdge.mpr (.inl (hclaimed g hg rfl))
  · intro g pair hp
    rcases Layout.mem_pairs_addEdge.mp hp with hp | ⟨rfl, -, hg⟩
    · exact .inl hp
    · exact .inr ⟨hg, ⟨w.layout.edges.length⟩, Nat.lt_irrefl _, by simp,
        Layout.edgeKey?_addEdge_new⟩

theorem Act.recorded (h : Act w w') (ht : w.Tended entries) :
    Layout.Recorded w.ambient.graph? w.layout w'.layout := by
  cases h with
  | draw h =>
    cases h with
    | node spec => exact recorded_buildNode ht.anchored ht.wellFormed spec _
    | edge spec _ _ => exact recorded_buildEdge ht.anchored spec
  | subgraph spec =>
    rw [ht.anchored.layout_buildSubgraph spec]
    exact .of_no_edges rfl (fun _ => rfl) fun _ => rfl
  | graph spec =>
    rw [w.layout_buildGraph spec]
    exact .of_no_edges rfl (fun _ => rfl) fun _ => rfl
  | restyle _ layout =>
    rw [layout]
    exact .refl _ _

theorem graph?_opened (w : Workspace) {o : Opening} (h : o.slot ≠ .graph) :
    (w.opened o).graph? = w.ambient.graph? := by
  cases ht : o.themeOf w with
  | none =>
    cases o with
    | graph id => exact absurd rfl h
    | nodeStyle _ | edgeStyle _ | theme _ | subgraph _ => simp only [opened, ht]; rfl
  | some t =>
    cases o with
    | graph id => exact absurd rfl h
    | nodeStyle _ | edgeStyle _ | theme _ | subgraph _ => simp only [opened, ht]; rfl

theorem graph?_opened_graph (w : Workspace) (id : GraphId) :
    (w.opened (.graph id)).graph? = some id := by
  cases ht : (Opening.graph id).themeOf w <;> simp only [opened, ht] <;> rfl

theorem Tended.graph?_eq (h : w.Tended entries) (h' : w'.Tended entries) :
    w'.ambient.graph? = w.ambient.graph? := by
  rw [h.holds.eq_of_same h'.holds]
  rfl

/-- The scopes opened on the way are not those of graphs. -/
theorem Tended.course_recorded (hp : ∀ w o, permitted w o → o.Known w ∧ o.slot ≠ .graph)
    (hc : Course permitted w w') (h : w.Tended entries) :
    Layout.Recorded w.ambient.graph? w.layout w'.layout := by
  have hknown : ∀ w o, permitted w o → o.Known w := fun w o hpermitted => (hp w o hpermitted).1
  induction hc generalizing entries with
  | refl w => exact .refl _ _
  | act hcourse ha ih =>
    have hv := (h.course hknown hcourse).1
    have hr := ha.recorded hv
    rw [h.graph?_eq hv] at hr
    exact (ih h).trans hr
  | @scope u v w o hcourse hpermitted inner ih ih' =>
    obtain ⟨known, hslot⟩ := hp v o hpermitted
    have hv := (h.course hknown hcourse).1
    have hr := ih' (hv.opened known)
    rw [graph?_opened v hslot, h.graph?_eq hv] at hr
    rw [layout_leave]
    exact (ih h).trans hr

end Workspace

/-- The graph that is open while the operation makes edges. A class graph opens one of its
own. -/
def Operation.graphOpen? (w : Workspace) : Operation → Option GraphId
  | .classGraph _ _ => w.ambient.graph?.or (some ⟨w.graphs.size⟩)
  | _ => w.ambient.graph?

namespace Workspace

variable {w : Workspace} {entries : List Entered}

theorem Tended.classGraph_recorded (h : w.Tended entries) (diagram : ClassDiagram)
    (options : ClassGraphOptions) :
    Layout.Recorded (w.ambient.graph?.or (some ⟨w.graphs.size⟩)) w.layout
      (w.buildClassGraph diagram options).2.layout := by
  let u := (w.buildGraph options.spec).2
  let o : Opening := .graph (w.buildGraph options.spec).1
  have hmade (current : Option GraphId) : Layout.Recorded current w.layout u.layout := by
    have hl : u.layout = w.layout.pushGraph := w.layout_buildGraph options.spec
    rw [hl]
    exact .of_no_edges rfl (fun _ => rfl) fun _ => rfl
  unfold buildClassGraph
  cases hg : w.ambient.graph? with
  | some outer =>
    have hopen : u.ambient.graph? = some outer := hg
    have he := enterGraph_eq_of_some (w.buildGraph options.spec).1 hopen
    simp only [u] at he
    simp only [he]
    exact hmade _
  | none =>
    have hfree : u.ambient.graph? = none := hg
    have he := enterGraph_eq_of_none (w.buildGraph options.spec).1 hfree
    have hu : u.Tended entries := (h.act (.graph options.spec)).1
    have ht := hu.opened (o := o) (w.hasGraph_buildGraph options.spec)
    have hd := drawing_buildClassDiagram { u with ambient := u.opened o } diagram
    have hr := ht.course_recorded (fun _ _ => False.elim) ((Course.refl _).drawing hd)
    have hopen : (u.opened o).graph? = some ⟨w.graphs.size⟩ := u.graph?_opened_graph _
    simp only [hopen] at hr
    simp only [u] at he
    simp only [he, layout_leave]
    exact (hmade _).trans hr

theorem Tended.perform_recorded (h : w.Tended entries) {op : Operation} (known : op.Known w) :
    Layout.Recorded (op.graphOpen? w) w.layout (w.perform op).layout := by
  by_cases hop : ∃ diagram options, op = .classGraph diagram options
  · obtain ⟨diagram, options, rfl⟩ := hop
    exact h.classGraph_recorded diagram options
  · have hopen : op.graphOpen? w = w.ambient.graph? := by
      cases op with
      | classGraph diagram options => exact absurd ⟨diagram, options, rfl⟩ hop
      | _ => rfl
    have hc : Course (fun w o => o.Known w ∧ o.slot ≠ .graph) w (w.perform op) := by
      apply perform_course known
      · exact fun t name _ _ _ => ⟨w.hasSubgraph_buildSubgraph (t.wrapperSpec name), nofun⟩
      · exact fun diagram options heq _ => absurd ⟨diagram, options, heq⟩ hop
    rw [hopen]
    exact h.course_recorded (fun _ _ hp => hp) hc

end Workspace

namespace Session

variable {s t : Session} {g : GraphId} {e : EdgeId}

/-- The edge was made while the graph was open, at some time in the course of a session that
began from nothing. -/
inductive MadeIn (g : GraphId) (e : EdgeId) : Session → Prop where
  | made {s : Session} (reachable : Reachable s) (op : Operation) (known : op.Known s.workspace)
      (current : op.graphOpen? s.workspace = some g) (fresh : ¬ s.workspace.HasEdge e)
      (present : (s.perform op).workspace.HasEdge e) : MadeIn g e (s.perform op)
  | later {s t : Session} (h : MadeIn g e s) (hst : Step s t) : MadeIn g e t

theorem MadeIn.reachable (h : MadeIn g e s) : Reachable s := by
  induction h with
  | made reachable op known => exact reachable.tail (.operation op known)
  | later _ hst ih => exact ih.tail hst

theorem Step.recorded (hs : Reachable s) (hst : Step s t) :
    (∃ op : Operation, op.Known s.workspace ∧ t = s.perform op ∧
        Layout.Recorded (op.graphOpen? s.workspace) s.workspace.layout t.workspace.layout) ∨
      t.workspace.layout = s.workspace.layout := by
  cases hst with
  | operation op known =>
    exact .inl ⟨op, known, rfl, (tended_of_reachable hs).perform_recorded known⟩
  | opened ho =>
    obtain ⟨rfl, -⟩ := ho.eq_opened
    exact .inr rfl
  | refused _ he =>
    obtain rfl := (Workspace.enter_error he).2.2
    exact .inr rfl
  | dropped unwinding _ => exact .inr (s.layout_drop unwinding _ _)

theorem MadeIn.claimed (h : MadeIn g e s) :
    ∃ pair ∈ (s.workspace.layout.claims g).pairs, s.workspace.edgeKeyOf? e = some pair := by
  simp only [← Workspace.edgeKey?_layout]
  induction h with
  | made reachable op known current fresh present =>
    have hr := (tended_of_reachable reachable).perform_recorded known
    refine hr.covered g current e ?_ ?_
    · rwa [Workspace.length_edges_layout]
    · rwa [Workspace.length_edges_layout]
  | later h hst ih =>
    obtain ⟨pair, hp, hk⟩ := ih
    rcases hst.recorded h.reachable with ⟨op, -, -, hr⟩ | hl
    · exact ⟨pair, hr.kept g pair hp, (hr.keys e (Layout.known_of_edgeKey? hk)).trans hk⟩
    · rw [hl]
      exact ⟨pair, hp, hk⟩

theorem exists_madeIn (hs : Reachable s) {pair : String × String}
    (hp : pair ∈ (s.workspace.layout.claims g).pairs) :
    ∃ e, MadeIn g e s ∧ s.workspace.edgeKeyOf? e = some pair := by
  simp only [← Workspace.edgeKey?_layout]
  induction hs with
  | refl =>
    rw [start, Workspace.layout_empty] at hp
    cases hp
  | @tail s t hs hst ih =>
    rcases Step.recorded hs hst with ⟨op, known, rfl, hr⟩ | hl
    · rcases hr.backed g pair hp with hp | ⟨hg, e, hfresh, hpresent, hk⟩
      · obtain ⟨e, he, hk⟩ := ih hp
        exact ⟨e, he.later hst, (hr.keys e (Layout.known_of_edgeKey? hk)).trans hk⟩
      · rw [Workspace.length_edges_layout] at hfresh hpresent
        exact ⟨e, .made hs op known hg hfresh hpresent, hk⟩
    · rw [hl] at hp ⊢
      obtain ⟨e, he, hk⟩ := ih hp
      exact ⟨e, he.later hst, hk⟩

/-- A graph claims just the pairs of the edges that were made while it was open. -/
theorem mem_pairs_iff (hs : Reachable s) {pair : String × String} :
    pair ∈ (s.workspace.layout.claims g).pairs ↔
      ∃ e, MadeIn g e s ∧ s.workspace.edgeKeyOf? e = some pair := by
  constructor
  · exact exists_madeIn hs
  · rintro ⟨e, he, hk⟩
    obtain ⟨pair', hp, hk'⟩ := he.claimed
    cases hk'.symm.trans hk
    exact hp

end Session

end DotDiagram
