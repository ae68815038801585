import Mathlib.Data.List.Basic
import DotDiagram.Proofs.Workspace.Agreement

/-! What a document shows of a tree. Level by level it has the statements of the nodes and
the edges that a container of the tree lists, so it depends on nothing outside of the tree. -/

namespace DotDiagram

namespace Dot

/-- The nodes and the edges that stand next to each other. -/
abbrev Level := List NodeStatement × List EdgeStatement

mutual

def SubgraphStatement.levels : SubgraphStatement → List Level
  | .mk _ _ nodes edges subgraphs => (nodes, edges) :: levelsOf subgraphs

def levelsOf : List SubgraphStatement → List Level
  | [] => []
  | s :: rest => s.levels ++ levelsOf rest

end

theorem mem_levelsOf {ss : List SubgraphStatement} {level : Level} :
    level ∈ levelsOf ss ↔ ∃ s ∈ ss, level ∈ s.levels := by
  induction ss with
  | nil => simp [levelsOf]
  | cons s ss ih => simp [levelsOf, ih]

namespace Document

variable (doc : Document)

def levels : List Level := (doc.nodes, doc.edges) :: levelsOf doc.subgraphs

/-- All nodes, at every level. -/
def declared : List NodeStatement := doc.levels.flatMap Prod.fst

def connections : List EdgeStatement := doc.levels.flatMap Prod.snd

end Document

end Dot

theorem Layout.within_iff {l : Layout} {c d : Container} :
    l.Within c d ↔ d = c ∨ ∃ s ∈ (l.contents c).subgraphs, l.Within (.subgraph s) d := by
  constructor
  · intro h
    rcases Relation.ReflTransGen.cases_head h with rfl | ⟨_, ⟨s, rfl, hs⟩, hd⟩
    · exact .inl rfl
    · exact .inr ⟨s, hs, hd⟩
  · rintro (rfl | ⟨s, hs, hd⟩)
    · exact .refl
    · exact .head ⟨s, rfl, hs⟩ hd

namespace Workspace

variable {w w' : Workspace} {g : GraphId} {c : Container}

/-- The statements of what a container lists. -/
def level (w : Workspace) (c : Container) : Dot.Level :=
  ((w.layout.contents c).nodes.filterMap w.nodeStatement,
    (w.layout.contents c).edges.filterMap w.edgeStatement)

theorem subgraphStatement_succ {fuel : Nat} {s : SubgraphId} {subgraph : Subgraph}
    (hs : w.subgraph? s = some subgraph) :
    w.subgraphStatement (fuel + 1) s = some (.mk subgraph.name subgraph.attrs
      (w.level (.subgraph s)).1 (w.level (.subgraph s)).2
      ((w.layout.contents (.subgraph s)).subgraphs.filterMap (w.subgraphStatement fuel))) := by
  rw [subgraphStatement, hs, level, contents_subgraph hs]
  rfl

theorem mem_levelsOf_filterMap {ids : List SubgraphId}
    {statement? : SubgraphId → Option Dot.SubgraphStatement} {P : SubgraphId → Dot.Level → Prop}
    (h : ∀ s ∈ ids, ∃ statement, statement? s = some statement ∧
      ∀ level, level ∈ statement.levels ↔ P s level) (level : Dot.Level) :
    level ∈ Dot.levelsOf (ids.filterMap statement?) ↔ ∃ s ∈ ids, P s level := by
  rw [Dot.mem_levelsOf]
  constructor
  · rintro ⟨statement, hst, hl⟩
    obtain ⟨s, hs, hsome⟩ := List.mem_filterMap.mp hst
    obtain ⟨statement', hsome', hiff⟩ := h s hs
    cases hsome'.symm.trans hsome
    exact ⟨s, hs, (hiff level).mp hl⟩
  · rintro ⟨s, hs, hp⟩
    obtain ⟨statement, hsome, hiff⟩ := h s hs
    exact ⟨statement, List.mem_filterMap.mpr ⟨s, hs, hsome⟩, (hiff level).mpr hp⟩

/-- The statement of a subgraph goes down to the bottom of the tree. -/
theorem levels_subgraphStatement (hw : w.layout.WellFormed) {fuel : Nat} {s : SubgraphId}
    (hs : w.HasSubgraph s) (hfuel : w.subgraphs.size ≤ fuel + s.index) :
    ∃ statement, w.subgraphStatement fuel s = some statement ∧ ∀ level,
      level ∈ statement.levels ↔
        ∃ d, w.layout.Within (.subgraph s) d ∧ level = w.level d := by
  induction fuel generalizing s with
  | zero =>
    rw [HasSubgraph] at hs
    omega
  | succ fuel ih =>
    have hsub : w.subgraph? s = some _ := Array.getElem?_eq_getElem hs
    have hinner : ∀ s' ∈ (w.layout.contents (.subgraph s)).subgraphs,
        ∃ statement, w.subgraphStatement fuel s' = some statement ∧ ∀ level,
          level ∈ statement.levels ↔
            ∃ d, w.layout.Within (.subgraph s') d ∧ level = w.level d := by
      intro s' hs'
      have hlater := hw.childLater s s' hs'
      exact ih (hw.childKnown _ s' hs') (by omega)
    refine ⟨_, subgraphStatement_succ hsub, fun level => ?_⟩
    rw [Dot.SubgraphStatement.levels, List.mem_cons, mem_levelsOf_filterMap hinner]
    constructor
    · rintro (rfl | ⟨s', hs', d, hd, rfl⟩)
      · exact ⟨.subgraph s, .refl, rfl⟩
      · exact ⟨d, Layout.within_iff.mpr (.inr ⟨s', hs', hd⟩), rfl⟩
    · rintro ⟨d, hd, rfl⟩
      rcases Layout.within_iff.mp hd with rfl | ⟨s', hs', hd⟩
      · exact .inl rfl
      · exact .inr ⟨s', hs', d, hd, rfl⟩

/-- A document has one level for each container of its tree. -/
theorem mem_levels_document (hw : w.layout.WellFormed) {doc : Dot.Document}
    (hdoc : w.document? g = some doc) (level : Dot.Level) :
    level ∈ doc.levels ↔ ∃ c, w.layout.Within (.graph g) c ∧ level = w.level c := by
  obtain ⟨graph, hg, rfl⟩ := Option.map_eq_some_iff.mp hdoc
  have hcontents := contents_graph hg
  have htop : w.level (.graph g) =
      (graph.nodes.filterMap w.nodeStatement, graph.edges.filterMap w.edgeStatement) := by
    rw [Workspace.level, hcontents]
    rfl
  have hinner : ∀ s ∈ graph.subgraphs, ∃ statement,
      w.subgraphStatement w.subgraphs.size s = some statement ∧ ∀ level,
        level ∈ statement.levels ↔
          ∃ d, w.layout.Within (.subgraph s) d ∧ level = w.level d := by
    intro s hs
    have hchild : s ∈ (w.layout.contents (.graph g)).subgraphs := by rwa [hcontents]
    exact levels_subgraphStatement hw (hw.childKnown _ s hchild) (Nat.le_add_right _ _)
  rw [Dot.Document.levels, List.mem_cons, mem_levelsOf_filterMap hinner, ← htop]
  constructor
  · rintro (rfl | ⟨s, hs, d, hd, rfl⟩)
    · exact ⟨.graph g, .refl, rfl⟩
    · exact ⟨d, Layout.within_iff.mpr (.inr ⟨s, by rwa [hcontents], hd⟩), rfl⟩
  · rintro ⟨d, hd, rfl⟩
    rcases Layout.within_iff.mp hd with rfl | ⟨s, hs, hd⟩
    · exact .inl rfl
    · rw [hcontents] at hs
      exact .inr ⟨s, hs, d, hd, rfl⟩

theorem mem_declared_iff (hw : w.layout.WellFormed) {doc : Dot.Document}
    (hdoc : w.document? g = some doc) {statement : Dot.NodeStatement} :
    statement ∈ doc.declared ↔ ∃ n, w.layout.NodeIn g n ∧ w.nodeStatement n = some statement := by
  rw [Dot.Document.declared, List.mem_flatMap]
  constructor
  · rintro ⟨level, hl, hst⟩
    obtain ⟨c, hc, rfl⟩ := (mem_levels_document hw hdoc level).mp hl
    obtain ⟨n, hn, hsome⟩ := List.mem_filterMap.mp hst
    exact ⟨n, ⟨c, hc, hn⟩, hsome⟩
  · rintro ⟨n, ⟨c, hc, hn⟩, hsome⟩
    exact ⟨w.level c, (mem_levels_document hw hdoc _).mpr ⟨c, hc, rfl⟩,
      List.mem_filterMap.mpr ⟨n, hn, hsome⟩⟩

theorem mem_connections_iff (hw : w.layout.WellFormed) {doc : Dot.Document}
    (hdoc : w.document? g = some doc) {statement : Dot.EdgeStatement} :
    statement ∈ doc.connections ↔
      ∃ e, w.layout.EdgeIn g e ∧ w.edgeStatement e = some statement := by
  rw [Dot.Document.connections, List.mem_flatMap]
  constructor
  · rintro ⟨level, hl, hst⟩
    obtain ⟨c, hc, rfl⟩ := (mem_levels_document hw hdoc level).mp hl
    obtain ⟨e, he, hsome⟩ := List.mem_filterMap.mp hst
    exact ⟨e, ⟨c, hc, he⟩, hsome⟩
  · rintro ⟨e, ⟨c, hc, he⟩, hsome⟩
    exact ⟨w.level c, (mem_levels_document hw hdoc _).mpr ⟨c, hc, rfl⟩,
      List.mem_filterMap.mpr ⟨e, he, hsome⟩⟩

/-- What a container says of itself, whatever it lists. -/
abbrev Title := Option GraphKind × String × AttrSet

def title? (w : Workspace) : Container → Option Title
  | .graph id => (w.graph? id).map fun g => (some g.kind, g.name, g.attrs)
  | .subgraph id => (w.subgraph? id).map fun s => (none, s.name, s.attrs)

theorem document?_eq {graph : Graph} (hg : w.graph? g = some graph) :
    w.document? g = some
      { kind := graph.kind
        name := graph.name
        attrs := graph.attrs
        subgraphs := (w.layout.contents (.graph g)).subgraphs.filterMap
          (w.subgraphStatement w.subgraphs.size)
        nodes := (w.level (.graph g)).1
        edges := (w.level (.graph g)).2 } := by
  rw [document?, hg, level, contents_graph hg]
  rfl

/-- From a container down both workspaces list the same, and all of it reads the same. -/
structure ReadsAlike (w w' : Workspace) (c : Container) : Prop where
  contents : ∀ d, w.layout.Within c d → w'.layout.contents d = w.layout.contents d
  titles : ∀ d, w.layout.Within c d → w'.title? d = w.title? d
  nodes : ∀ d, w.layout.Within c d → ∀ n ∈ (w.layout.contents d).nodes,
    w'.nodeStatement n = w.nodeStatement n
  edges : ∀ d, w.layout.Within c d → ∀ e ∈ (w.layout.contents d).edges,
    w'.edgeStatement e = w.edgeStatement e

namespace ReadsAlike

theorem child (h : ReadsAlike w w' c) {s : SubgraphId}
    (hs : s ∈ (w.layout.contents c).subgraphs) : ReadsAlike w w' (.subgraph s) := by
  have hin : ∀ d, w.layout.Within (.subgraph s) d → w.layout.Within c d :=
    fun d hd => Layout.within_iff.mpr (.inr ⟨s, hs, hd⟩)
  exact ⟨fun d hd => h.contents d (hin d hd), fun d hd => h.titles d (hin d hd),
    fun d hd => h.nodes d (hin d hd), fun d hd => h.edges d (hin d hd)⟩

theorem level (h : ReadsAlike w w' c) : w'.level c = w.level c := by
  have hnodes : (w.layout.contents c).nodes.filterMap w'.nodeStatement =
      (w.layout.contents c).nodes.filterMap w.nodeStatement :=
    List.filterMap_congr fun n hn => h.nodes c .refl n hn
  have hedges : (w.layout.contents c).edges.filterMap w'.edgeStatement =
      (w.layout.contents c).edges.filterMap w.edgeStatement :=
    List.filterMap_congr fun e he => h.edges c .refl e he
  rw [Workspace.level, h.contents c .refl, hnodes, hedges, Workspace.level]

/-- However much fuel there is, if only it lasts. -/
theorem subgraphStatement (hw : w.layout.WellFormed) {fuel fuel' : Nat} {s : SubgraphId}
    (h : ReadsAlike w w' (.subgraph s)) (hs : w.HasSubgraph s)
    (hfuel : w.subgraphs.size ≤ fuel + s.index) (hfuel' : w'.subgraphs.size ≤ fuel' + s.index) :
    w'.subgraphStatement fuel' s = w.subgraphStatement fuel s := by
  induction fuel generalizing fuel' s with
  | zero =>
    rw [HasSubgraph] at hs
    omega
  | succ fuel ih =>
    obtain ⟨subgraph, hsub⟩ : ∃ subgraph, w.subgraph? s = some subgraph :=
      ⟨_, Array.getElem?_eq_getElem hs⟩
    have htitle := h.titles (.subgraph s) .refl
    simp only [title?, hsub, Option.map_some, Option.map_eq_some_iff, Prod.mk.injEq,
      true_and] at htitle
    obtain ⟨subgraph', hsub', hname, hattrs⟩ := htitle
    have hlt' := (Array.getElem?_eq_some_iff.mp hsub').1
    obtain ⟨fuel', rfl⟩ : ∃ k, fuel' = k + 1 := ⟨fuel' - 1, by omega⟩
    have hinner : (w.layout.contents (.subgraph s)).subgraphs.filterMap
        (w'.subgraphStatement fuel') =
        (w.layout.contents (.subgraph s)).subgraphs.filterMap (w.subgraphStatement fuel) := by
      apply List.filterMap_congr
      intro s' hs'
      have hlater := hw.childLater s s' hs'
      exact ih (h.child hs') (hw.childKnown _ s' hs') (by omega) (by omega)
    rw [subgraphStatement_succ hsub', subgraphStatement_succ hsub, hname, hattrs, h.level,
      h.contents (.subgraph s) .refl, hinner]

theorem document? (hw : w.layout.WellFormed) (h : ReadsAlike w w' (.graph g)) :
    w'.document? g = w.document? g := by
  have htitle := h.titles (.graph g) .refl
  simp only [title?] at htitle
  cases hgraph : w.graph? g with
  | none =>
    rw [hgraph, Option.map_none, Option.map_eq_none_iff] at htitle
    rw [Workspace.document?, htitle, Workspace.document?, hgraph]
    rfl
  | some graph =>
    simp only [hgraph, Option.map_some, Option.map_eq_some_iff, Prod.mk.injEq,
      Option.some.injEq] at htitle
    obtain ⟨graph', hgraph', hkind, hname, hattrs⟩ := htitle
    have hinner : (w.layout.contents (.graph g)).subgraphs.filterMap
        (w'.subgraphStatement w'.subgraphs.size) =
        (w.layout.contents (.graph g)).subgraphs.filterMap
          (w.subgraphStatement w.subgraphs.size) := by
      apply List.filterMap_congr
      intro s hs
      exact (h.child hs).subgraphStatement hw (hw.childKnown _ s hs) (Nat.le_add_right _ _)
        (Nat.le_add_right _ _)
    rw [document?_eq hgraph', document?_eq hgraph, hkind, hname, hattrs, h.level,
      h.contents (.graph g) .refl, hinner]

theorem dot? (hw : w.layout.WellFormed) (h : ReadsAlike w w' (.graph g)) :
    w'.dot? g = w.dot? g := by
  rw [Workspace.dot?, h.document? hw, Workspace.dot?]

end ReadsAlike

/-- Both workspaces have the same subgraphs from a container down, and nodes and edges that
are listed there read the same. -/
structure SameFrom (w w' : Workspace) (c : Container) : Prop where
  subgraphs : ∀ s, w.layout.Within c (.subgraph s) → w'.subgraph? s = w.subgraph? s
  nodes : ∀ d, w.layout.Within c d → ∀ n ∈ (w.layout.contents d).nodes,
    w'.nodeStatement n = w.nodeStatement n
  edges : ∀ d, w.layout.Within c d → ∀ e ∈ (w.layout.contents d).edges,
    w'.edgeStatement e = w.edgeStatement e

namespace SameFrom

/-- The tree of a graph has no other graph. -/
theorem readsAlike (hw : w.layout.WellFormed) (h : SameFrom w w' (.graph g))
    (hg : w'.graph? g = w.graph? g) : ReadsAlike w w' (.graph g) := by
  have hsame : ∀ d, w.layout.Within (.graph g) d →
      w'.layout.contents d = w.layout.contents d ∧ w'.title? d = w.title? d := by
    intro d hd
    cases d with
    | subgraph s => simp only [layout, title?, h.subgraphs s hd, and_self]
    | graph g' =>
      cases hw.root_unique hd .refl
      simp only [layout, title?, hg, and_self]
  exact ⟨fun d hd => (hsame d hd).1, fun d hd => (hsame d hd).2, h.nodes, h.edges⟩

theorem dot? (hw : w.layout.WellFormed) (h : SameFrom w w' (.graph g))
    (hg : w'.graph? g = w.graph? g) : w'.dot? g = w.dot? g :=
  (h.readsAlike hw hg).dot? hw

end SameFrom

end Workspace

end DotDiagram
