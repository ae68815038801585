import Mathlib.Data.List.Nodup
import Mathlib.Order.WellFounded
import DotDiagram.Proofs.Workspace.Rendition

/-! Walks. From a container a walk goes through each subgraph that it lists, and so on down.
Where subgraphs stand only in what was made before them every walk ends, and where nothing
is listed twice it comes to each container once. Lookups and documents follow the walk. -/

namespace DotDiagram

/-- A container that a walk comes to, and how deep it stands below the beginning. -/
structure Visit where
  depth : Nat
  container : Container

theorem Once.nodup {α : Type} {lists : Container → List α} (h : Once lists) (c : Container) :
    (lists c).Nodup := by
  rw [List.nodup_iff_getElem?_ne_getElem?]
  intro i j hij hj heq
  have hi := List.getElem?_eq_getElem (Nat.lt_trans hij hj)
  have hj' := List.getElem?_eq_getElem hj
  rw [hi] at heq
  exact Nat.ne_of_lt hij (h c c i j _ hi heq.symm).2

namespace Layout

/-- A walk that ends has only so many parts, so it can be built up from them. -/
inductive Walk (l : Layout) : Nat → Container → List Visit → Prop where
  | visit {depth : Nat} {c : Container} (inner : SubgraphId → List Visit)
      (h : ∀ s ∈ (l.contents c).subgraphs, Walk l (depth + 1) (.subgraph s) (inner s)) :
      Walk l depth c (⟨depth, c⟩ :: (l.contents c).subgraphs.flatMap inner)

variable {l : Layout} {depth : Nat} {c d : Container} {visits : List Visit}

namespace WellFormed

/-- How many subgraphs there may be below a container. -/
def room (l : Layout) : Container → Nat
  | .graph _ => l.subgraphs + 1
  | .subgraph s => l.subgraphs - s.index

theorem child_wellFounded (h : l.WellFormed) : WellFounded fun d c => l.Child c d := by
  refine Subrelation.wf ?_ (measure (room l)).wf
  rintro _ c ⟨s, rfl, hs⟩
  have hknown := h.childKnown c s hs
  cases c with
  | graph g =>
    change l.subgraphs - s.index < l.subgraphs + 1
    omega
  | subgraph p =>
    have hlater := h.childLater p s hs
    change l.subgraphs - s.index < l.subgraphs - p.index
    omega

theorem acyclic (h : l.WellFormed) (c : Container) : ¬ Relation.TransGen l.Child c c := by
  intro hc
  exact h.child_wellFounded.transGen.irrefl.irrefl c (Relation.transGen_swap.mp hc)

theorem exists_walk (h : l.WellFormed) (depth : Nat) (c : Container) :
    ∃ visits, l.Walk depth c visits := by
  induction c using h.child_wellFounded.induction generalizing depth with
  | _ c ih =>
    have hinner : ∀ s, ∃ visits, s ∈ (l.contents c).subgraphs →
        l.Walk (depth + 1) (.subgraph s) visits := by
      intro s
      by_cases hs : s ∈ (l.contents c).subgraphs
      · obtain ⟨visits, hv⟩ := ih (.subgraph s) ⟨s, rfl, hs⟩ (depth + 1)
        exact ⟨visits, fun _ => hv⟩
      · exact ⟨[], fun hs' => absurd hs' hs⟩
    choose inner hinner using hinner
    exact ⟨_, .visit inner hinner⟩

/-- Two subgraphs that one container lists have nothing in common. -/
theorem sibling_unique (h : l.WellFormed) {s s' : SubgraphId} (hs : s ∈ (l.contents c).subgraphs)
    (hs' : s' ∈ (l.contents c).subgraphs) (hd : l.Within (.subgraph s) d)
    (hd' : l.Within (.subgraph s') d) : s = s' := by
  have hparent : Relator.RightUnique (Function.swap l.Child) := by
    rintro _ a b ⟨x, rfl, ha⟩ ⟨x', hx, hb⟩
    cases hx
    exact h.subgraphsOnce.owner_unique ha hb
  -- One of the two would stand in the other, and so their parent would stand in itself.
  have hnot : ∀ {s s' : SubgraphId}, s ∈ (l.contents c).subgraphs →
      s' ∈ (l.contents c).subgraphs → l.Within (.subgraph s) (.subgraph s') → s = s' := by
    intro s s' hs hs' hin
    rcases Relation.ReflTransGen.cases_tail hin with heq | ⟨p, hp, ⟨x, hx, hpx⟩⟩
    · exact (Container.subgraph.inj heq).symm
    · cases hx
      cases h.subgraphsOnce.owner_unique hpx hs'
      exact absurd (Relation.TransGen.head' ⟨s, rfl, hs⟩ hp) (h.acyclic c)
  rcases Relation.ReflTransGen.total_of_right_unique hparent
    (Relation.reflTransGen_swap.mpr hd) (Relation.reflTransGen_swap.mpr hd') with hin | hin
  · exact (hnot hs' hs (Relation.reflTransGen_swap.mp hin)).symm
  · exact hnot hs hs' (Relation.reflTransGen_swap.mp hin)

end WellFormed

namespace Walk

theorem mem_iff (h : l.Walk depth c visits) : d ∈ visits.map Visit.container ↔ l.Within c d := by
  induction h with
  | visit inner _ ih =>
    rw [within_iff, List.map_cons, List.mem_cons, List.map_flatMap, List.mem_flatMap]
    exact or_congr_right (exists_congr fun s => and_congr_right fun hs => ih s hs)

theorem nodup (hl : l.WellFormed) (h : l.Walk depth c visits) :
    (visits.map Visit.container).Nodup := by
  induction h with
  | @visit depth c inner hinner ih =>
    rw [List.map_cons, List.map_flatMap, List.nodup_cons, List.mem_flatMap, List.nodup_flatMap]
    refine ⟨?_, ih, ?_⟩
    · rintro ⟨s, hs, hc⟩
      have hin := (hinner s hs).mem_iff.mp hc
      exact hl.acyclic c (Relation.TransGen.head' ⟨s, rfl, hs⟩ hin)
    · refine (hl.subgraphsOnce.nodup c).pairwise_of_forall_ne fun s hs s' hs' hne => ?_
      refine List.disjoint_left.mpr fun d hd hd' => ?_
      exact hne (hl.sibling_unique hs hs' ((hinner s hs).mem_iff.mp hd)
        ((hinner s' hs').mem_iff.mp hd'))

end Walk

end Layout

namespace Workspace

open Dot

variable {w : Workspace} {depth : Nat} {c : Container} {g : GraphId} {s : SubgraphId}
  {visits : List Visit}

/-- The node of a name that the container itself lists. -/
def listed? (w : Workspace) (name : String) : Container → Option NodeId
  | .graph id => (w.graph? id).bind fun g => g.nodes.find? fun n => w.nodeName n == name
  | .subgraph id => (w.subgraph? id).bind fun s => s.nodes.get? name

theorem listed?_graph (name : String) {graph : Graph} (hg : w.graph? g = some graph) :
    w.listed? name (.graph g) = graph.nodes.find? fun n => w.nodeName n == name := by
  rw [listed?, hg, Option.bind_some]

theorem listed?_subgraph (name : String) {subgraph : Subgraph}
    (hs : w.subgraph? s = some subgraph) :
    w.listed? name (.subgraph s) = subgraph.nodes.get? name := by
  rw [listed?, hs, Option.bind_some]

/-- What opens a container in the text. -/
def opening : Title → String
  | (some kind, name, _) => kind.keyword ++ " " ++ quoted name ++ " \x7b"
  | (none, name, _) => "subgraph " ++ quoted name ++ " \x7b"

/-- The lines of a container without those of the subgraphs in it. -/
def ownLines (w : Workspace) (kind : GraphKind) (v : Visit) : List String :=
  match w.title? v.container with
  | none => []
  | some title =>
    (indentation v.depth ++ opening title) ::
      (attrLines (v.depth + 1) title.2.2 ++
        (w.level v.container).1.map (NodeStatement.line (v.depth + 1)) ++
        (w.level v.container).2.map (EdgeStatement.line kind (v.depth + 1)) ++
        [indentation v.depth ++ "\x7d"])

theorem findSome?_flatMap {α β γ : Type} {f : α → Option γ} {f' : β → Option γ}
    {inner : α → List β} {xs : List α} (h : ∀ x ∈ xs, f x = (inner x).findSome? f') :
    xs.findSome? f = (xs.flatMap inner).findSome? f' := by
  induction xs with
  | nil => rfl
  | cons x xs ih =>
    have hrest := ih fun y hy => h y (List.mem_cons_of_mem _ hy)
    rw [List.findSome?_cons, h x List.mem_cons_self, hrest, List.flatMap_cons,
      List.findSome?_append]
    cases (inner x).findSome? f' <;> rfl

/-- A lookup in a subgraph takes the first node that a walk comes to. -/
theorem findWithin_walk (hw : w.layout.WellFormed) (name : String) {fuel : Nat}
    (hfuel : w.subgraphs.size ≤ fuel + s.index)
    (h : w.layout.Walk depth (.subgraph s) visits) :
    w.findWithin name fuel s = visits.findSome? fun v => w.listed? name v.container := by
  generalize hc : Container.subgraph s = c at h
  induction h generalizing fuel s with
  | @visit depth c inner _ ih =>
    subst hc
    cases hs : w.subgraph? s with
    | none =>
      have hblank := contents_subgraph_of_none hs
      cases fuel <;> simp [hblank, Contents.empty, listed?, hs, findWithin]
    | some subgraph =>
      have hlt := (Array.getElem?_eq_some_iff.mp hs).1
      obtain ⟨fuel, rfl⟩ : ∃ k, fuel = k + 1 := ⟨fuel - 1, by omega⟩
      have hinner : ∀ s' ∈ (w.layout.contents (.subgraph s)).subgraphs,
          w.findWithin name fuel s' =
            (inner s').findSome? fun v => w.listed? name v.container := by
        intro s' hs'
        have hlater := hw.childLater s s' hs'
        exact ih s' hs' (by omega) rfl
      have hrest := findSome?_flatMap hinner
      rw [contents_subgraph hs] at hrest ⊢
      rw [List.findSome?_cons, listed?_subgraph name hs, ← hrest]
      simp only [findWithin, hs]
      cases subgraph.nodes.get? name <;> rfl

theorem findInGraph_walk (hw : w.layout.WellFormed) (name : String)
    (h : w.layout.Walk depth (.graph g) visits) :
    w.findInGraph g name = visits.findSome? fun v => w.listed? name v.container := by
  cases h with
  | visit inner hinner =>
    cases hg : w.graph? g with
    | none =>
      have hblank := contents_graph_of_none hg
      simp [hblank, Contents.empty, listed?, hg, findInGraph]
    | some graph =>
      have hfound : ∀ s ∈ (w.layout.contents (.graph g)).subgraphs, w.findInSubgraph s name =
          (inner s).findSome? fun v => w.listed? name v.container :=
        fun s hs => findWithin_walk hw name (Nat.le_add_right _ _) (hinner s hs)
      have hrest := findSome?_flatMap hfound
      rw [contents_graph hg] at hrest ⊢
      rw [List.findSome?_cons, listed?_graph name hg, ← hrest]
      simp only [findInGraph, hg]
      cases graph.nodes.find? fun n => w.nodeName n == name <;> rfl

/-- What a text of several parts says of a walk: a level for each visit, and up to their
order its lines. -/
structure Follows (w : Workspace) (kind : GraphKind) (visits : List Visit) (levels : List Level)
    (lines : List String) : Prop where
  levels : levels = visits.map fun v => w.level v.container
  lines : lines.Perm (visits.flatMap (w.ownLines kind))

namespace Follows

variable {kind : GraphKind}

theorem subgraphs {statement? : SubgraphId → Option SubgraphStatement}
    {inner : SubgraphId → List Visit} {ids : List SubgraphId}
    (h : ∀ s ∈ ids, ∃ statement, statement? s = some statement ∧
      w.Follows kind (inner s) statement.levels (statement.lines kind depth)) :
    w.Follows kind (ids.flatMap inner) (levelsOf (ids.filterMap statement?))
      (subgraphLines kind depth (ids.filterMap statement?)) := by
  induction ids with
  | nil => exact ⟨rfl, .refl _⟩
  | cons s ids ih =>
    obtain ⟨statement, hst, hs⟩ := h s List.mem_cons_self
    obtain ⟨hlevels, hlines⟩ := ih fun s hs => h s (List.mem_cons_of_mem _ hs)
    rw [List.filterMap_cons_some hst, List.flatMap_cons]
    refine ⟨?_, ?_⟩
    · rw [levelsOf, hs.levels, hlevels, List.map_append]
    · rw [subgraphLines, List.flatMap_append]
      exact hs.lines.append hlines

/-- The statement of a subgraph has its own lines around those of its subgraphs. -/
theorem subgraph {subgraph : Subgraph} (hs : w.subgraph? s = some subgraph)
    {statements : List SubgraphStatement} (h : w.Follows kind visits (levelsOf statements)
      (subgraphLines kind (depth + 1) statements)) :
    let statement : SubgraphStatement := .mk subgraph.name subgraph.attrs
      (w.level (.subgraph s)).1 (w.level (.subgraph s)).2 statements
    w.Follows kind (⟨depth, .subgraph s⟩ :: visits) statement.levels
      (statement.lines kind depth) := by
  refine ⟨by rw [SubgraphStatement.levels, h.levels, List.map_cons], ?_⟩
  have htitle : w.title? (.subgraph s) = some (none, subgraph.name, subgraph.attrs) := by
    rw [title?, hs, Option.map_some]
  rw [SubgraphStatement.lines, List.flatMap_cons, ownLines, htitle]
  simp only [opening, List.cons_append, List.append_assoc, String.append_assoc]
  refine .cons _ (.append_left _ (.append_left _ (.append_left _ ?_)))
  exact List.perm_append_comm.trans (.append_left _ h.lines)

/-- A document has the nodes and the edges of the graph after its subgraphs. -/
theorem document {graph : Graph} (hg : w.graph? g = some graph) {doc : Document}
    (hdoc : w.document? g = some doc)
    (h : w.Follows doc.kind visits (levelsOf doc.subgraphs)
      (subgraphLines doc.kind 1 doc.subgraphs)) :
    w.Follows doc.kind (⟨0, .graph g⟩ :: visits) doc.levels doc.lines := by
  rw [document?_eq hg, Option.some.injEq] at hdoc
  have htitle : w.title? (.graph g) = some (some doc.kind, doc.name, doc.attrs) := by
    rw [title?, hg, Option.map_some, ← hdoc]
  have hnodes : doc.nodes = (w.level (.graph g)).1 := by rw [← hdoc]
  have hedges : doc.edges = (w.level (.graph g)).2 := by rw [← hdoc]
  refine ⟨by rw [Document.levels, h.levels, List.map_cons, hnodes, hedges], ?_⟩
  have hstart : ∀ line, indentation 0 ++ line = line := by simp [indentation]
  rw [Document.lines, List.flatMap_cons, ownLines, htitle]
  simp only [opening, List.cons_append, List.append_assoc, hnodes, hedges, hstart, Nat.zero_add]
  refine .cons _ (.append_left _ ?_)
  refine (List.Perm.append_right _ h.lines).trans (List.perm_append_comm.trans (.of_eq ?_))
  simp only [List.append_assoc, List.cons_append, List.nil_append]

end Follows

theorem follows_subgraphStatement (hw : w.layout.WellFormed) {fuel : Nat}
    (hs : w.HasSubgraph s) (hfuel : w.subgraphs.size ≤ fuel + s.index) (kind : GraphKind)
    (h : w.layout.Walk depth (.subgraph s) visits) :
    ∃ statement, w.subgraphStatement fuel s = some statement ∧
      w.Follows kind visits statement.levels (statement.lines kind depth) := by
  generalize hc : Container.subgraph s = c at h
  induction h generalizing fuel s with
  | @visit depth c inner _ ih =>
    subst hc
    have hsub : w.subgraph? s = some _ := Array.getElem?_eq_getElem hs
    rw [HasSubgraph] at hs
    obtain ⟨fuel, rfl⟩ : ∃ k, fuel = k + 1 := ⟨fuel - 1, by omega⟩
    refine ⟨_, subgraphStatement_succ hsub, Follows.subgraph hsub (Follows.subgraphs ?_)⟩
    intro s' hs'
    have hlater := hw.childLater s s' hs'
    exact ih s' hs' (hw.childKnown _ s' hs') (by omega) rfl

theorem follows_document (hw : w.layout.WellFormed) {doc : Document}
    (hdoc : w.document? g = some doc) (h : w.layout.Walk 0 (.graph g) visits) :
    w.Follows doc.kind visits doc.levels doc.lines := by
  obtain ⟨graph, hg, hgraph⟩ := Option.map_eq_some_iff.mp hdoc
  cases h with
  | visit inner hinner =>
    apply Follows.document hg hdoc
    have hsubgraphs : doc.subgraphs = (w.layout.contents (.graph g)).subgraphs.filterMap
        (w.subgraphStatement w.subgraphs.size) := by
      rw [← hgraph, contents_graph hg]
      rfl
    rw [hsubgraphs]
    exact Follows.subgraphs fun s hs => follows_subgraphStatement hw (hw.childKnown _ s hs)
      (Nat.le_add_right _ _) doc.kind (hinner s hs)

end Workspace

end DotDiagram
