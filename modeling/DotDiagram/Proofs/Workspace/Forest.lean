import DotDiagram.Proofs.Dot.RoundTrip
import DotDiagram.Proofs.Workspace.Isolation
import DotDiagram.Proofs.Workspace.Walk

/-! Containment is a forest. In any session, whatever is opened and dropped, nothing is
listed twice, and a subgraph stands in a container that was there before it. So no subgraph
stands in itself, lookups and documents come to an end, and a document has each thing that
its tree lists once. -/

namespace DotDiagram

section

variable {α β : Type} {l : Layout} {c : Container} {depth : Nat} {visits : List Visit}
  {lists : Container → List α}

theorem Layout.Walk.mem_flatMap (h : l.Walk depth c visits) (lists : Container → List α) (a : α) :
    a ∈ visits.flatMap (fun v => lists v.container) ↔ ∃ d, l.Within c d ∧ a ∈ lists d := by
  rw [← List.flatMap_map Visit.container lists, List.mem_flatMap]
  exact exists_congr fun d => and_congr_left fun _ => h.mem_iff

/-- What is listed once is come across once. -/
theorem Layout.Walk.nodup_flatMap (hl : l.WellFormed) (h : l.Walk depth c visits)
    (once : Once lists) : (visits.flatMap fun v => lists v.container).Nodup := by
  rw [← List.flatMap_map Visit.container lists, List.nodup_flatMap]
  refine ⟨fun d _ => once.nodup d, (h.nodup hl).imp fun hne => ?_⟩
  exact List.disjoint_left.mpr fun a ha ha' => hne (once.owner_unique ha ha')

theorem map_some_filterMap {f : α → Option β} {xs : List α}
    (h : ∀ x ∈ xs, (f x).isSome = true) : (xs.filterMap f).map some = xs.map f := by
  induction xs with
  | nil => rfl
  | cons x xs ih =>
    obtain ⟨y, hy⟩ := Option.isSome_iff_exists.mp (h x List.mem_cons_self)
    rw [List.filterMap_cons_some hy, List.map_cons, List.map_cons, hy,
      ih fun z hz => h z (List.mem_cons_of_mem _ hz)]

end

namespace Workspace

variable {w : Workspace} {g : GraphId}

/-- The document has each thing in the tree of the graph once, and the lines of its text are
those of the containers in the tree, each with the nodes and the edges that it lists. -/
structure Emits (w : Workspace) (g : GraphId) (doc : Dot.Document) : Prop where
  nodes : ∃ ns : List NodeId, ns.Nodup ∧ (∀ n, n ∈ ns ↔ w.layout.NodeIn g n) ∧
    doc.declared.map some = ns.map w.nodeStatement
  edges : ∃ es : List EdgeId, es.Nodup ∧ (∀ e, e ∈ es ↔ w.layout.EdgeIn g e) ∧
    doc.connections.map some = es.map w.edgeStatement
  containers : ∃ visits, w.layout.Walk 0 (.graph g) visits ∧
    (visits.map Visit.container).Nodup ∧
    (∀ v ∈ visits, (w.title? v.container).isSome = true) ∧
    doc.lines.Perm (visits.flatMap (w.ownLines doc.kind))

/-- What is listed makes a forest, and whatever goes through it comes to an end. -/
structure Forest (w : Workspace) : Prop where
  nodesOnce : Once fun c => (w.layout.contents c).nodes
  edgesOnce : Once fun c => (w.layout.contents c).edges
  subgraphsOnce : Once fun c => (w.layout.contents c).subgraphs
  acyclic : ∀ c, ¬ Relation.TransGen w.layout.Child c c
  walks : ∀ depth c, ∃ visits, w.layout.Walk depth c visits ∧
    (visits.map Visit.container).Nodup ∧
    ∀ d, d ∈ visits.map Visit.container ↔ w.layout.Within c d
  subgraphLookups : ∀ s name depth visits, w.layout.Walk depth (.subgraph s) visits →
    w.findInSubgraph s name = visits.findSome? fun v => w.listed? name v.container
  graphLookups : ∀ g name depth visits, w.layout.Walk depth (.graph g) visits →
    w.findInGraph g name = visits.findSome? fun v => w.listed? name v.container
  documents : ∀ g, w.HasGraph g → ∃ doc, w.document? g = some doc ∧
    w.dot? g = some (String.intercalate "\n" doc.lines) ∧
    (doc.Legible → (w.dot? g).bind Dot.read? = some doc.shown) ∧ w.Emits g doc

theorem isSome_nodeStatement (hw : w.layout.WellFormed) {c : Container} {n : NodeId}
    (hn : n ∈ (w.layout.contents c).nodes) : (w.nodeStatement n).isSome = true := by
  have hlt := hw.node_known hn
  rw [length_nodes_layout] at hlt
  simp [nodeStatement, node?, hlt]

theorem isSome_edgeStatement (hw : w.layout.WellFormed) {c : Container} {e : EdgeId}
    (he : e ∈ (w.layout.contents c).edges) : (w.edgeStatement e).isSome = true := by
  have hlt := hw.edge_known he
  rw [length_edges_layout] at hlt
  simp [edgeStatement, edge?, hlt]

namespace Follows

variable {doc : Dot.Document} {visits : List Visit}

theorem declared (h : w.Follows doc.kind visits doc.levels doc.lines) :
    doc.declared =
      (visits.flatMap fun v => (w.layout.contents v.container).nodes).filterMap
        w.nodeStatement := by
  rw [Dot.Document.declared, h.levels, List.flatMap_map, List.filterMap_flatMap]
  rfl

theorem connections (h : w.Follows doc.kind visits doc.levels doc.lines) :
    doc.connections =
      (visits.flatMap fun v => (w.layout.contents v.container).edges).filterMap
        w.edgeStatement := by
  rw [Dot.Document.connections, h.levels, List.flatMap_map, List.filterMap_flatMap]
  rfl

end Follows

theorem emits (hw : w.layout.WellFormed) (hg : w.layout.Has (.graph g)) {doc : Dot.Document}
    (hdoc : w.document? g = some doc) : w.Emits g doc := by
  obtain ⟨visits, h⟩ := hw.exists_walk 0 (.graph g)
  have hf := follows_document hw hdoc h
  have hnodes := h.mem_flatMap fun c => (w.layout.contents c).nodes
  have hedges := h.mem_flatMap fun c => (w.layout.contents c).edges
  refine ⟨⟨_, h.nodup_flatMap hw hw.nodesOnce, hnodes, ?_⟩,
    ⟨_, h.nodup_flatMap hw hw.edgesOnce, hedges, ?_⟩,
    visits, h, h.nodup hw, ?_, hf.lines⟩
  · rw [hf.declared, map_some_filterMap]
    intro n hn
    obtain ⟨c, -, hn⟩ := (hnodes n).mp hn
    exact isSome_nodeStatement hw hn
  · rw [hf.connections, map_some_filterMap]
    intro e he
    obtain ⟨c, -, he⟩ := (hedges e).mp he
    exact isSome_edgeStatement hw he
  · intro v hv
    have hin := h.mem_iff.mp (List.mem_map_of_mem hv)
    exact has_layout_iff.mp (hw.has_of_within hg hin)

theorem forest_of_wellFormed (hw : w.layout.WellFormed) : w.Forest where
  nodesOnce := hw.nodesOnce
  edgesOnce := hw.edgesOnce
  subgraphsOnce := hw.subgraphsOnce
  acyclic := hw.acyclic
  walks depth c := by
    obtain ⟨visits, h⟩ := hw.exists_walk depth c
    exact ⟨visits, h, h.nodup hw, fun _ => h.mem_iff⟩
  subgraphLookups _ name _ _ h := findWithin_walk hw name (Nat.le_add_right _ _) h
  graphLookups _ name _ _ h := findInGraph_walk hw name h
  documents g hg := by
    have hgraph : w.graph? g = some _ := Array.getElem?_eq_getElem hg
    have hdoc := document?_eq hgraph
    have hdot : w.dot? g = some _ := congrArg (Option.map Dot.Document.text) hdoc
    exact ⟨_, hdoc, hdot, fun hlegible => hdot ▸ hlegible.read?_text, emits hw hg hdoc⟩

end Workspace

namespace Layout

variable {l l' : Layout} {receiver : Option Container} {current : Option GraphId}

/-- Only the receiver comes to list other subgraphs, and these are new. -/
def Subdivided (receiver : Option Container) (l l' : Layout) : Prop :=
  ∀ c, ∀ s ∈ (l'.contents c).subgraphs,
    s ∈ (l.contents c).subgraphs ∨ receiver = some c ∧ l.subgraphs ≤ s.index

theorem Subdivided.of_eq (h : ∀ c, (l'.contents c).subgraphs = (l.contents c).subgraphs) :
    Subdivided receiver l l' :=
  fun c s hs => .inl (by rwa [h] at hs)

theorem Grow.subdivided (h : Grow receiver current l l') : Subdivided receiver l l' := by
  cases h with
  | node name _ => exact .of_eq fun c => l.contents_subgraphs_addNode receiver current name c
  | edge _ _ _ => exact .of_eq fun c => l.contents_subgraphs_addEdge receiver current _ _ _ c
  | subgraph =>
    intro c s hs
    rcases (l.mem_subgraphs_addSubgraph receiver).mp hs with hs | ⟨rfl, hc⟩
    · exact .inl hs
    · exact .inr ⟨hc, Nat.le_refl _⟩
  | graph => exact .of_eq fun _ => rfl

theorem Grown.subdivided (h : Grown receiver current l l') : Subdivided receiver l l' := by
  induction h with
  | refl => exact .of_eq fun _ => rfl
  | tail hs hg ih =>
    intro c s hmem
    rcases hg.subdivided c s hmem with hmem | ⟨hc, hle⟩
    · exact ih c s hmem
    · exact .inr ⟨hc, Nat.le_trans (Grown.extended hs).subgraphs hle⟩

end Layout

namespace Workspace

variable {w w' : Workspace} {entries : List Entered} {op : Operation}

/-- Nodes and edges leave the subgraphs where they are. -/
theorem lasting_subgraphs (lists : Container → List SubgraphId) :
    Lasting fun w => w.Anchored ∧ ∀ c, (w.layout.contents c).subgraphs = lists c where
  node := by
    rintro w spec ⟨ha, hl⟩
    rcases ha.layout_buildNode spec with ⟨-, hsame⟩ | ⟨-, -, hadd⟩
    · refine ⟨ha.of_layout (w.ambient_buildNode spec) ?_ ?_, ?_⟩ <;> simp [hsame, hl]
    · refine ⟨ha.of_layout (w.ambient_buildNode spec) ?_ ?_, ?_⟩ <;> simp [hadd, hl]
  edge := by
    rintro w spec ⟨ha, hl⟩
    have hadd := (ha.layout_buildEdge spec).2
    refine ⟨ha.of_layout (w.ambient_buildEdge spec) ?_ ?_, ?_⟩ <;> simp [hadd, hl]

/-- The nodes of a group come after its wrapper, which is the only subgraph it makes. -/
theorem Tended.template_subdivided (h : w.Tended entries) (t : Template) :
    Layout.Subdivided w.ambient.receiver? w.layout (t.build w).2.layout := by
  cases hclash : Template.firstClash w [] t.names with
  | some name =>
    rw [Template.build_of_clash hclash]
    exact .of_eq fun _ => rfl
  | none =>
    cases hwrapper : t.wrapper with
    | none =>
      have hd := w.drawing_buildNodes t.factories .empty
      rw [Template.build_of_bare hclash hwrapper]
      exact .of_eq ((lasting_subgraphs _).drawing ⟨h.anchored, fun _ => rfl⟩ hd).2
    | some name =>
      let u := (w.buildSubgraph (t.wrapperSpec name)).2
      have hu := (h.act (.subgraph (t.wrapperSpec name))).1
      have known : (Opening.subgraph ⟨w.subgraphs.size⟩).Known u :=
        w.hasSubgraph_buildSubgraph (t.wrapperSpec name)
      have hin : (t.wrapped name w).Anchored := (hu.opened known).anchored
      have hd := drawing_buildNodes (t.wrapped name w) t.factories .empty
      have hsame := ((lasting_subgraphs _).drawing ⟨hin, fun _ => rfl⟩ hd).2
      have hmade : Layout.Grow w.ambient.receiver? w.ambient.graph? w.layout u.layout := by
        rw [h.anchored.layout_buildSubgraph]
        exact .subgraph
      rw [Template.build_of_wrapper hclash hwrapper, layout_leave]
      exact fun c s hs => hmade.subdivided c s (by rwa [hsame c] at hs)

theorem Tended.classGraph_subdivided (h : w.Tended entries) (diagram : ClassDiagram)
    (options : ClassGraphOptions) :
    Layout.Subdivided w.ambient.receiver? w.layout
      (w.buildClassGraph diagram options).2.layout := by
  let u := (w.buildGraph options.spec).2
  have hu : u.Tended entries := (h.act (.graph options.spec)).1
  have hmade : u.layout = w.layout.pushGraph := w.layout_buildGraph options.spec
  unfold buildClassGraph
  cases hfree : u.ambient.graph? with
  | some outer =>
    have he := enterGraph_eq_of_some (w.buildGraph options.spec).1 hfree
    simp only [u] at he hmade
    simp only [he, hmade]
    exact .of_eq fun _ => rfl
  | none =>
    have he := enterGraph_eq_of_none (w.buildGraph options.spec).1 hfree
    have known : (Opening.graph ⟨w.graphs.size⟩).Known u := w.hasGraph_buildGraph options.spec
    have hin := (hu.opened known).anchored
    have hd := drawing_buildClassDiagram
      { u with ambient := u.opened (.graph ⟨w.graphs.size⟩) } diagram
    have hsame := ((lasting_subgraphs _).drawing ⟨hin, fun _ => rfl⟩ hd).2
    simp only [u] at he
    simp only [he, layout_leave]
    refine .of_eq fun c => (hsame c).trans ?_
    change (u.layout.contents c).subgraphs = _
    rw [hmade]
    rfl

/-- What was open before an operation may get one more subgraph, and nothing else may. -/
theorem Tended.perform_subdivided (h : w.Tended entries) (known : op.Known w) :
    Layout.Subdivided w.ambient.receiver? w.layout (w.perform op).layout := by
  by_cases hscoped : (∃ t, op = .template t) ∨ ∃ diagram options, op = .classGraph diagram options
  · rcases hscoped with ⟨t, rfl⟩ | ⟨diagram, options, rfl⟩
    · exact h.template_subdivided t
    · exact h.classGraph_subdivided diagram options
  · obtain ⟨htemplate, hclass⟩ := not_or.mp hscoped
    have hc : Course (fun _ _ => False) w (w.perform op) := by
      apply perform_course known
      · exact fun t _ heq _ _ => htemplate ⟨t, heq⟩
      · exact fun diagram options heq _ => hclass ⟨diagram, options, heq⟩
    exact Layout.Grown.subdivided (h.course_grown hc).2.2

end Workspace

namespace Session

variable {s t : Session}

/-- At some time of the session the container was there, and the subgraph was not. -/
def ContainerFirst (s : Session) (c : Container) (x : SubgraphId) : Prop :=
  ∃ r, Reachable r ∧ Relation.ReflTransGen Step r s ∧ r.workspace.layout.Has c ∧
    ¬ r.workspace.HasSubgraph x

theorem subdivided_of_step (hs : Reachable s) (hst : Step s t) :
    Layout.Subdivided s.workspace.ambient.receiver? s.workspace.layout t.workspace.layout := by
  cases hst with
  | operation op known => exact (tended_of_reachable hs).perform_subdivided known
  | opened ho =>
    obtain ⟨rfl, -⟩ := ho.eq_opened
    exact .of_eq fun _ => rfl
  | refused _ he =>
    obtain rfl := (Workspace.enter_error he).2.2
    exact .of_eq fun _ => rfl
  | dropped unwinding _ => exact .of_eq fun _ => by rw [layout_drop]

theorem containerFirst_of_reachable (hs : Reachable s) {c : Container} {x : SubgraphId}
    (hx : x ∈ (s.workspace.layout.contents c).subgraphs) : s.ContainerFirst c x := by
  induction hs with
  | refl =>
    rw [start, Workspace.layout_empty] at hx
    cases hx
  | @tail s t hs hst ih =>
    rcases subdivided_of_step hs hst c x hx with hx | ⟨hc, hnew⟩
    · obtain ⟨r, hr, hlater, hhas, hfresh⟩ := ih hx
      exact ⟨r, hr, hlater.tail hst, hhas, hfresh⟩
    · exact ⟨s, hs, .single hst, (tended_of_reachable hs).receiver_known c hc,
        Nat.not_lt_of_le hnew⟩

/-- Whatever is opened and dropped, and in which order. -/
theorem containment_forest (hs : Reachable s) :
    s.workspace.Forest ∧
      ∀ c, ∀ x ∈ (s.workspace.layout.contents c).subgraphs, s.ContainerFirst c x :=
  ⟨Workspace.forest_of_wellFormed (tended_of_reachable hs).wellFormed,
    fun _ _ hx => containerFirst_of_reachable hs hx⟩

/-- A subgraph is open within itself, and one of its own is open within that. -/
def coiled : Session :=
  ((((divided.opened (.subgraph ⟨0⟩)).perform (.subgraph (.named "t"))).opened
    (.subgraph ⟨0⟩)).perform (.subgraph (.named "u"))).opened (.subgraph ⟨1⟩)

/-- The graph is closed before its subgraphs, and another opened while they are still open. -/
def tangled : Session :=
  (((coiled.drop false ⟨⟨1, .graph ⟨0⟩⟩, none⟩ (coiled.held.drop 1)).perform
    (.graph (.plain "h"))).opened (.graph ⟨1⟩)).perform (.subgraph (.named "v"))

theorem coiled_reachable : Reachable coiled := by
  have houter : (Opening.subgraph ⟨0⟩).Known divided.workspace := Nat.zero_lt_one
  have hinner : (Opening.subgraph ⟨0⟩).Known
      ((divided.opened (.subgraph ⟨0⟩)).perform (.subgraph (.named "t"))).workspace :=
    Nat.zero_lt_two
  have hown : (Opening.subgraph ⟨1⟩).Known
      ((((divided.opened (.subgraph ⟨0⟩)).perform (.subgraph (.named "t"))).opened
        (.subgraph ⟨0⟩)).perform (.subgraph (.named "u"))).workspace :=
    Nat.lt_succ_of_lt Nat.one_lt_two
  have hopen := (Orderly.reachable divided_orderly).tail (.opened (opens_opened houter nofun))
  have hagain := (hopen.tail (.operation (.subgraph (.named "t")) trivial)).tail
    (.opened (opens_opened hinner nofun))
  exact (hagain.tail (.operation (.subgraph (.named "u")) trivial)).tail
    (.opened (opens_opened hown nofun))

theorem tangled_reachable : Reachable tangled := by
  have hclosed : Step coiled
      (coiled.drop false ⟨⟨1, .graph ⟨0⟩⟩, none⟩ ([] ++ coiled.held.drop 1)) := .dropped false rfl
  have hknown : (Opening.graph ⟨1⟩).Known ((coiled.drop false ⟨⟨1, .graph ⟨0⟩⟩, none⟩
      (coiled.held.drop 1)).perform (.graph (.plain "h"))).workspace := Nat.one_lt_two
  have hmade := (coiled_reachable.tail hclosed).tail (.operation (.graph (.plain "h")) trivial)
  exact (hmade.tail (.opened (opens_opened hknown fun _ => rfl))).tail
    (.operation (.subgraph (.named "v")) trivial)

def tangledLines : List String :=
  ["digraph \"g\" \x7b", "  rankdir=\"TB\";", "  subgraph \"cluster_s\" \x7b",
    "    subgraph \"cluster_t\" \x7b", "      subgraph \"cluster_v\" \x7b", "      \x7d", "    \x7d",
    "    subgraph \"cluster_u\" \x7b", "    \x7d", "  \x7d", "\x7d"]

theorem tangled_forest :
    Reachable tangled ∧
      (tangled.workspace.layout.contents (.subgraph ⟨0⟩)).subgraphs = [⟨1⟩, ⟨2⟩] ∧
      (tangled.workspace.layout.contents (.subgraph ⟨1⟩)).subgraphs = [⟨3⟩] ∧
      tangled.workspace.Forest ∧ tangled.ContainerFirst (.subgraph ⟨1⟩) ⟨3⟩ ∧
      tangled.workspace.dot? ⟨0⟩ = some (String.intercalate "\n" tangledLines) := by
  obtain ⟨hforest, hfirst⟩ := containment_forest tangled_reachable
  obtain ⟨doc, hdoc, hdot, -⟩ := hforest.documents ⟨0⟩ Nat.two_pos
  have hlines : (tangled.workspace.document? ⟨0⟩).map Dot.Document.lines = some tangledLines := by
    decide +kernel
  rw [hdoc, Option.map_some] at hlines
  rw [Option.some.inj hlines] at hdot
  exact ⟨tangled_reachable, rfl, rfl, hforest, hfirst _ _ (List.mem_singleton_self _), hdot⟩

end Session

end DotDiagram
