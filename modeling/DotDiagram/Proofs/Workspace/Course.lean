import DotDiagram.Proofs.Workspace.Growth

/-! The course of an operation: things are made or restyled, and scopes opened on the way
are closed again in order. All along what is open exists and the layout is well formed. -/

namespace DotDiagram

namespace Workspace

/-- One thing is made, or some are restyled. -/
inductive Act (w : Workspace) : Workspace → Prop where
  | draw {w' : Workspace} (h : Draw w w') : Act w w'
  | subgraph (spec : SubgraphSpec) : Act w (w.buildSubgraph spec).2
  | graph (spec : GraphSpec) : Act w (w.buildGraph spec).2
  | restyle {w' : Workspace} (ambient : w'.ambient = w.ambient) (layout : w'.layout = w.layout) :
      Act w w'

/-- Scopes may be opened where `permitted` holds. -/
inductive Course (permitted : Workspace → Opening → Prop) : Workspace → Workspace → Prop where
  | refl (w : Workspace) : Course permitted w w
  | act {u v w : Workspace} (h : Course permitted u v) (ha : Act v w) : Course permitted u w
  | scope {u v w : Workspace} {o : Opening} (h : Course permitted u v) (hp : permitted v o)
      (inner : Course permitted { v with ambient := v.opened o } w) :
      Course permitted u (w.leave (o.held v).scope).2

variable {permitted : Workspace → Opening → Prop} {u v w w' : Workspace}

namespace Course

theorem single (ha : Act w w') : Course permitted w w' := (refl w).act ha

theorem drawing (h : Course permitted u v) (hd : Drawing v w) : Course permitted u w := by
  induction hd with
  | refl => exact h
  | tail _ hst ih => exact ih.act (.draw hst)

end Course

theorem layout_setNode (id : NodeId) (key : String) (value : AttrValue) :
    (w.setNode id key value).layout = w.layout :=
  layout_modifyNode id _ fun _ => rfl

theorem layout_updateNode (id : NodeId) (attrs : AttrSet) :
    (w.updateNode id attrs).layout = w.layout :=
  layout_modifyNode id _ fun _ => rfl

theorem layout_setEdge (id : EdgeId) (key : String) (value : AttrValue) :
    (w.setEdge id key value).layout = w.layout :=
  layout_modifyEdge id _ fun _ => rfl

theorem layout_updateEdge (id : EdgeId) (attrs : AttrSet) :
    (w.updateEdge id attrs).layout = w.layout :=
  layout_modifyEdge id _ fun _ => rfl

theorem course_foldl {α : Type} (f : Workspace → α → Workspace) (hf : ∀ w x, Act w (f w x))
    (xs : List α) (w : Workspace) : Course permitted w (xs.foldl f w) := by
  suffices h : ∀ u, Course permitted w u → Course permitted w (xs.foldl f u) from h w (.refl w)
  induction xs with
  | nil => exact fun _ h => h
  | cons x xs ih => exact fun u h => ih (f u x) (h.act (hf u x))

/-- The wrapper of a group is opened right after it was made. -/
theorem course_template (t : Template) (hp : ∀ name, t.wrapper = some name →
    Template.firstClash w [] t.names = none →
      permitted (w.buildSubgraph (t.wrapperSpec name)).2
        (.subgraph (w.buildSubgraph (t.wrapperSpec name)).1)) :
    Course permitted w (t.build w).2 := by
  cases hc : Template.firstClash w [] t.names with
  | some name =>
    rw [Template.build_of_clash hc]
    exact .refl w
  | none =>
    cases ht : t.wrapper with
    | none =>
      rw [Template.build_of_bare hc ht]
      exact (Course.refl w).drawing (w.drawing_buildNodes t.factories .empty)
    | some name =>
      let u := (w.buildSubgraph (t.wrapperSpec name)).2
      have hmade : Course permitted w u := .single (.subgraph (t.wrapperSpec name))
      have hd := drawing_buildNodes (t.wrapped name w) t.factories .empty
      rw [Template.build_of_wrapper hc ht]
      exact hmade.scope (hp name ht hc) ((Course.refl _).drawing hd)

theorem course_classGraph (diagram : ClassDiagram) (options : ClassGraphOptions)
    (hp : w.ambient.graph? = none →
      permitted (w.buildGraph options.spec).2 (.graph (w.buildGraph options.spec).1)) :
    Course permitted w (w.buildClassGraph diagram options).2 := by
  let u := (w.buildGraph options.spec).2
  let o : Opening := .graph (w.buildGraph options.spec).1
  have hmade : Course permitted w u := .single (.graph options.spec)
  unfold buildClassGraph
  cases hg : u.ambient.graph? with
  | some outer =>
    have he := enterGraph_eq_of_some (w.buildGraph options.spec).1 hg
    simp only [u] at he
    simp only [he]
    exact hmade
  | none =>
    have he := enterGraph_eq_of_none (w.buildGraph options.spec).1 hg
    have hd := drawing_buildClassDiagram { u with ambient := u.opened o } diagram
    simp only [u] at he
    simp only [he]
    exact hmade.scope (hp hg) ((Course.refl _).drawing hd)

/-- Only groups and class graphs open scopes of their own. -/
theorem perform_course {op : Operation} (known : op.Known w)
    (ht : ∀ t name, op = .template t → t.wrapper = some name →
      Template.firstClash w [] t.names = none →
        permitted (w.buildSubgraph (t.wrapperSpec name)).2
          (.subgraph (w.buildSubgraph (t.wrapperSpec name)).1))
    (hg : ∀ diagram options, op = .classGraph diagram options → w.ambient.graph? = none →
      permitted (w.buildGraph options.spec).2 (.graph (w.buildGraph options.spec).1)) :
    Course permitted w (w.perform op) := by
  cases op with
  | graph spec => exact .single (.graph spec)
  | subgraph spec => exact .single (.subgraph spec)
  | node spec => exact .single (.draw (.node spec))
  | edge spec => exact .single (.draw (.edge spec known.1 known.2))
  | relate source target kind label => exact .single (.draw (.edge _ known.1 known.2))
  | connect target chain => exact .single (.draw (.edge _ known.2.1 known.1))
  | connectAll targets chain =>
    exact (Course.refl w).drawing (drawing_fanEdges known.2.1 known.1)
  | setChain key value chain =>
    exact course_foldl (fun w edge => w.setEdge edge key value)
      (fun w edge => .restyle rfl (layout_setEdge edge key value)) chain.edges w
  | updateChain attrs chain =>
    exact course_foldl (fun w edge => w.updateEdge edge attrs)
      (fun w edge => .restyle rfl (layout_updateEdge edge attrs)) chain.edges w
  | setNode id key value => exact .single (.restyle rfl (layout_setNode id key value))
  | updateNode id attrs => exact .single (.restyle rfl (layout_updateNode id attrs))
  | setEdge id key value => exact .single (.restyle rfl (layout_setEdge id key value))
  | updateEdge id attrs => exact .single (.restyle rfl (layout_updateEdge id attrs))
  | setSubgraph id key value =>
    have hl := layout_modifySubgraph_same (w := w) id
      (f := fun s => { s with attrs := s.attrs.insert key value }) (fun _ => rfl) fun _ => rfl
    exact .single (.restyle rfl hl)
  | setGraph id key value =>
    have hl := layout_modifyGraph_same (w := w) id
      (f := fun g => { g with attrs := g.attrs.insert key value }) (fun _ => rfl) fun _ => rfl
    exact .single (.restyle rfl hl)
  | template t => exact course_template t fun name => ht t name rfl
  | classDiagram diagram => exact (Course.refl w).drawing (w.drawing_buildClassDiagram diagram)
  | classGraph diagram options => exact course_classGraph diagram options (hg diagram options rfl)
  | mindMap outline => exact (Course.refl w).drawing (w.drawing_buildMindMap outline)

theorem layout_leave (w : Workspace) (scope : Scope) : (w.leave scope).2.layout = w.layout := by
  unfold leave
  cases scope.theme <;> rfl

theorem attached_buildNode (h : w.Anchored) {spec : NodeSpec} {id : NodeId}
    (hok : (w.buildNode spec).1 = .ok id) :
    ((w.buildNode spec).2.node? id).map Node.attached = some w.ambient.receiver?.isSome := by
  rcases h.layout_buildNode spec with ⟨⟨e, he⟩, -⟩ | ⟨-, hid, hl⟩
  · cases he.symm.trans hok
  · cases hid.symm.trans hok
    have hnode := nodes_getElem?_layout (w.buildNode spec).2 ⟨w.nodes.size⟩
    rw [hl, Layout.nodes_addNode, ← length_nodes_layout, List.getElem?_concat_length] at hnode
    obtain ⟨node, hn, hpair⟩ := Option.map_eq_some_iff.mp hnode.symm
    have hattached : node.attached = w.ambient.receiver?.isSome := congrArg Prod.snd hpair
    rw [← length_nodes_layout, hn, Option.map_some, hattached]

theorem attached_buildEdge (h : w.Anchored) (spec : EdgeSpec) :
    ((w.buildEdge spec).2.edge? (w.buildEdge spec).1).map Edge.attached =
      some (w.containerOpen &&
        !w.pairTaken (w.nodeName spec.source, w.nodeName spec.target)) := by
  obtain ⟨hid, hl⟩ := h.layout_buildEdge spec
  have hedge := edges_getElem?_layout (w.buildEdge spec).2 ⟨w.edges.size⟩
  rw [hl, Layout.edges_addEdge, ← length_edges_layout, List.getElem?_concat_length] at hedge
  obtain ⟨edge, he, htriple⟩ := Option.map_eq_some_iff.mp hedge.symm
  have hattached : edge.attached = _ := congrArg (·.2.2) htriple
  rw [hid, ← length_edges_layout, he, Option.map_some, hattached]

theorem Draw.grown (h : Draw w w') (ha : w.Anchored) :
    w'.ambient = w.ambient ∧
      w.layout.Grown w.ambient.receiver? w.ambient.graph? w'.layout := by
  cases h with
  | node spec =>
    refine ⟨w.ambient_buildNode spec, ?_⟩
    rcases ha.layout_buildNode spec with ⟨-, hl⟩ | ⟨ht, -, hl⟩
    · rw [hl]
    · rw [hl]
      refine .single (.node _ fun g hg hm => ?_)
      have hg' : (w.takeName spec.name).2.ambient.graph? = some g := by rwa [ambient_takeName]
      rw [← w.layout_takeName spec.name, ← nameTaken_of_graph hg', ht] at hm
      cases hm
  | edge spec hs ht =>
    refine ⟨w.ambient_buildEdge spec, ?_⟩
    rw [(ha.layout_buildEdge spec).2]
    refine .single (.edge ?_ ?_ fun hattached => ?_)
    · rwa [length_nodes_layout]
    · rwa [length_nodes_layout]
    · rw [Bool.and_eq_true, containerOpen_eq] at hattached
      exact hattached.1

theorem Act.grown (h : Act w w') (ha : w.Anchored) :
    w'.ambient = w.ambient ∧
      w.layout.Grown w.ambient.receiver? w.ambient.graph? w'.layout := by
  cases h with
  | draw h => exact h.grown ha
  | subgraph spec =>
    refine ⟨w.ambient_buildSubgraph spec, ?_⟩
    rw [ha.layout_buildSubgraph spec]
    exact .single .subgraph
  | graph spec =>
    refine ⟨rfl, ?_⟩
    rw [w.layout_buildGraph spec]
    exact .single .graph
  | restyle ambient layout =>
    refine ⟨ambient, ?_⟩
    rw [layout]

/-- The entries are those of the stacks, all that they open exists, and the layout is well
formed. -/
structure Tended (w : Workspace) (entries : List Entered) : Prop where
  holds : w.ambient.Holds entries
  known : ∀ e ∈ entries, e.opening.Known w
  wellFormed : w.layout.WellFormed

end Workspace

namespace Opening

variable {w w' : Workspace} {o : Opening}

theorem graph?_eq_some_iff {id : GraphId} : o.graph? = some id ↔ o = .graph id := by
  cases o <;> simp [graph?]

theorem subgraph?_eq_some_iff {id : SubgraphId} : o.subgraph? = some id ↔ o = .subgraph id := by
  cases o <;> simp [subgraph?]

theorem Known.of_extended (h : o.Known w) (hl : w.layout.Extended w'.layout) : o.Known w' := by
  cases o with
  | graph id => exact Nat.lt_of_lt_of_le h hl.graphs
  | subgraph id => exact Nat.lt_of_lt_of_le h hl.subgraphs
  | nodeStyle _ | edgeStyle _ | theme _ => trivial

theorem opening_of_mem_held {e : Entered} (he : e ∈ (o.held w).entries) :
    e.opening = o ∨ ∃ t, e.opening = .theme t := by
  cases ht : o.themeOf w with
  | none =>
    simp only [held, ht, Held.entries, Option.toList_none, List.nil_append,
      List.mem_singleton] at he
    exact .inl (by rw [he])
  | some t =>
    simp only [held, ht, Held.entries, Option.toList_some, List.cons_append, List.nil_append,
      List.mem_cons, List.not_mem_nil, or_false] at he
    rcases he with rfl | rfl
    · exact .inr ⟨t, rfl⟩
    · exact .inl rfl

theorem known_held (h : o.Known w) : ∀ e ∈ (o.held w).entries, e.opening.Known w := by
  intro e he
  rcases opening_of_mem_held he with ho | ⟨t, ho⟩
  · rwa [ho]
  · rw [ho]
    trivial

end Opening

namespace Ambient.Holds

variable {a : Ambient} {entries : List Entered}

theorem mem_graphs (h : a.Holds entries) {x : Entry GraphId} :
    x ∈ a.graphs ↔ ∃ e ∈ entries, e.opening = .graph x.value ∧ e.id = x.id := by
  simp only [h.graphs, mem_stackOf, Opening.graph?_eq_some_iff]

theorem mem_subgraphs (h : a.Holds entries) {x : Entry SubgraphId} :
    x ∈ a.subgraphs ↔ ∃ e ∈ entries, e.opening = .subgraph x.value ∧ e.id = x.id := by
  simp only [h.subgraphs, mem_stackOf, Opening.subgraph?_eq_some_iff]

end Ambient.Holds

namespace Workspace

namespace Tended

variable {permitted : Workspace → Opening → Prop} {w w' : Workspace} {entries : List Entered}
  {o : Opening} {held : Held}

theorem anchored (h : w.Tended entries) : w.Anchored := by
  constructor
  · intro x hx
    obtain ⟨e, he, ho, -⟩ := h.holds.mem_graphs.mp hx
    have hk := h.known e he
    rwa [ho] at hk
  · intro x hx
    obtain ⟨e, he, ho, -⟩ := h.holds.mem_subgraphs.mp hx
    have hk := h.known e he
    rwa [ho] at hk

theorem receiver_known (h : w.Tended entries) :
    ∀ c, w.ambient.receiver? = some c → w.layout.Has c := by
  intro c hc
  rcases Option.or_eq_some_iff.mp hc with hs | ⟨-, hg⟩
  · obtain ⟨s, hopen, rfl⟩ := Option.map_eq_some_iff.mp hs
    obtain ⟨subgraph, hsub⟩ := h.anchored.exists_subgraph hopen
    exact (Array.getElem?_eq_some_iff.mp hsub).1
  · obtain ⟨g, hopen, rfl⟩ := Option.map_eq_some_iff.mp hg
    obtain ⟨graph, hgraph⟩ := h.anchored.exists_graph hopen
    exact (Array.getElem?_eq_some_iff.mp hgraph).1

theorem act (h : w.Tended entries) (ha : Act w w') :
    w'.Tended entries ∧ w.layout.Extended w'.layout := by
  obtain ⟨hambient, hgrown⟩ := ha.grown h.anchored
  have hl := Layout.Grown.extended hgrown
  refine ⟨⟨hambient ▸ h.holds, fun e he => (h.known e he).of_extended hl, ?_⟩, hl⟩
  exact Layout.Grown.wellFormed hgrown h.wellFormed h.receiver_known

theorem opened (h : w.Tended entries) (known : o.Known w) :
    { w with ambient := w.opened o }.Tended (entries ++ (o.held w).entries) := by
  refine ⟨opened_holds h.holds o, fun e he => ?_, h.wellFormed⟩
  rcases List.mem_append.mp he with he | he
  · exact h.known e he
  · exact Opening.known_held known e he

theorem leave (h : w.Tended (entries ++ held.entries))
    (ht : ∀ t ∈ held.theme, t.opening.slot = .theme) :
    (w.leave held.scope).2.Tended entries := by
  have hl := w.layout_leave held.scope
  refine ⟨(leave_last h.holds ht).2, fun e he => ?_, by rw [hl]; exact h.wellFormed⟩
  have hk := h.known e (List.mem_append_left _ he)
  apply hk.of_extended
  rw [hl]
  exact .refl _

theorem course (hp : ∀ w o, permitted w o → o.Known w) (hc : Course permitted w w')
    (h : w.Tended entries) : w'.Tended entries ∧ w.layout.Extended w'.layout := by
  induction hc generalizing entries with
  | refl w => exact ⟨h, .refl _⟩
  | act _ ha ih =>
    obtain ⟨hv, hl⟩ := ih h
    obtain ⟨hw, hl'⟩ := hv.act ha
    exact ⟨hw, hl.trans hl'⟩
  | @scope u v w o _ hpermitted _ ih ih' =>
    obtain ⟨hv, hl⟩ := ih h
    -- Within the scope its own entries stand on top of those from outside.
    obtain ⟨hw, hl'⟩ := ih' (hv.opened (hp v o hpermitted))
    refine ⟨hw.leave (o.held_theme v), ?_⟩
    rw [layout_leave]
    exact hl.trans hl'

/-- What holds from before to after each act holds over a course, if it can be chained. -/
theorem course_chained {R : Layout → Layout → Prop} (refl : ∀ l, R l l)
    (trans : ∀ {l l' l''}, R l l' → R l' l'' → R l l'')
    (act : ∀ {w w' entries}, w.Tended entries → Act w w' → R w.layout w'.layout)
    (hp : ∀ w o, permitted w o → o.Known w) (hc : Course permitted w w')
    (h : w.Tended entries) : R w.layout w'.layout := by
  induction hc generalizing entries with
  | refl w => exact refl w.layout
  | act hcourse ha ih => exact trans (ih h) (act (h.course hp hcourse).1 ha)
  | @scope u v w o hcourse hpermitted _ ih ih' =>
    have hv := (h.course hp hcourse).1.opened (hp v o hpermitted)
    rw [layout_leave]
    exact trans (ih h) (ih' hv)

end Tended

end Workspace

end DotDiagram
