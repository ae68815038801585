import DotDiagram.Proofs.Workspace.Record
import DotDiagram.Proofs.Workspace.Rendition

/-! The first edge between two names wins. A further one is left out, whichever way it is
made and whatever subgraph is open, and no document ever shows anything of it. Edges that
go the other way are not concerned. -/

namespace DotDiagram

/-- An edge that is not attached is in no container. -/
def Workspace.Detached (w : Workspace) (e : EdgeId) : Prop :=
  (w.edge? e).map Edge.attached = some false

/-- The names that the edge is going to connect. -/
def Workspace.specKey (w : Workspace) (spec : EdgeSpec) : String × String :=
  (w.nodeName spec.source, w.nodeName spec.target)

namespace Workspace

variable {w w' : Workspace} {e : EdgeId}

theorem detached_iff (w : Workspace) (e : EdgeId) :
    w.Detached e ↔ ∃ source target, w.layout.edges[e.index]? = some (source, target, false) := by
  rw [Detached, edges_getElem?_layout]
  cases w.edge? e <;> simp

theorem Detached.not_listed (h : w.Detached e) (hw : w.layout.WellFormed) (c : Container) :
    e ∉ (w.layout.contents c).edges := by
  intro he
  obtain ⟨_, _, hattached⟩ := (hw.edgeListed e).mp ⟨c, he⟩
  obtain ⟨_, _, hdetached⟩ := (w.detached_iff e).mp h
  cases hattached.symm.trans hdetached

/-- Edges that nothing lists do not show. -/
theorem dot?_eq_of_edges (hw : w.layout.WellFormed)
    (hedges : ∀ c, ∀ e ∈ (w.layout.contents c).edges, w'.edge? e = w.edge? e)
    (hnodes : w'.nodes = w.nodes) (hsubgraphs : w'.subgraphs = w.subgraphs)
    (hgraphs : w'.graphs = w.graphs) (g : GraphId) : w'.dot? g = w.dot? g := by
  have hname : w'.nodeName = w.nodeName := by
    funext n
    rw [nodeName, node?, hnodes, nodeName, node?]
  have hsame : SameFrom w w' (.graph g) := by
    refine ⟨fun s _ => ?_, fun d _ n _ => ?_, fun d _ e he => ?_⟩
    · rw [subgraph?, hsubgraphs, subgraph?]
    · rw [nodeStatement, node?, hnodes, nodeStatement, node?]
    · rw [edgeStatement, hedges d e he, hname, edgeStatement]
  exact hsame.dot? hw (by rw [graph?, hgraphs, graph?])

theorem edge?_modifyEdge_of_ne {e' : EdgeId} (f : Edge → Edge) (h : e' ≠ e) :
    (w.modifyEdge e f).edge? e' = w.edge? e' := by
  have hne : e.index ≠ e'.index := fun hi => h (congrArg EdgeId.mk hi.symm)
  simp [edge?, modifyEdge, Array.getElem?_modify, hne]

theorem Detached.dot?_modifyEdge (h : w.Detached e) (hw : w.layout.WellFormed) (f : Edge → Edge)
    (g : GraphId) : (w.modifyEdge e f).dot? g = w.dot? g := by
  have hlisted : ∀ c, ∀ e' ∈ (w.layout.contents c).edges,
      (w.modifyEdge e f).edge? e' = w.edge? e' := by
    intro c e' he'
    exact edge?_modifyEdge_of_ne f fun heq => h.not_listed hw c (heq ▸ he')
  exact dot?_eq_of_edges hw hlisted rfl rfl rfl g

theorem pairTaken_of_subgraph {s : SubgraphId} (hg : w.ambient.graph? = none)
    (hs : w.ambient.subgraph? = some s) (pair : String × String) :
    w.pairTaken pair = true ↔
      ∃ e ∈ (w.layout.contents (.subgraph s)).edges, w.edgeKeyOf? e = some pair := by
  simp only [pairTaken, hg, hs]
  cases hsub : w.subgraph? s with
  | none => simp [contents_subgraph_of_none hsub, Contents.empty]
  | some subgraph => simp [contents_subgraph hsub, Subgraph.contents]

/-- An edge of another pair is claimed by no graph and listed by no subgraph for this one. -/
theorem pairTaken_buildEdge (ha : w.Anchored) (hw : w.layout.WellFormed) {spec : EdgeSpec}
    {pair : String × String} (hne : pair ≠ w.specKey spec) :
    (w.buildEdge spec).2.pairTaken pair = true ↔ w.pairTaken pair = true := by
  have hl := (ha.layout_buildEdge spec).2
  have hambient := w.ambient_buildEdge spec
  cases hg : w.ambient.graph? with
  | some g =>
    rw [pairTaken_of_graph (hambient ▸ hg), pairTaken_of_graph hg, hl, Layout.mem_pairs_addEdge]
    simp only [nodeName_layout]
    constructor
    · rintro (hp | ⟨rfl, -⟩)
      · exact hp
      · exact absurd rfl hne
    · exact .inl
  | none =>
    cases hs : w.ambient.subgraph? with
    | none =>
      simp [pairTaken, hg, hs]
    | some s =>
      rw [pairTaken_of_subgraph (hambient ▸ hg) (hambient ▸ hs), pairTaken_of_subgraph hg hs]
      simp only [← edgeKey?_layout, hl, Layout.mem_edges_addEdge]
      constructor
      · rintro ⟨e, he | ⟨rfl, -⟩, hk⟩
        · exact ⟨e, he, (Layout.edgeKey?_addEdge (hw.edge_known he)).symm.trans hk⟩
        · rw [Layout.edgeKey?_addEdge_new, nodeName_layout, nodeName_layout] at hk
          exact absurd (Option.some.inj hk).symm hne
      · rintro ⟨e, he, hk⟩
        exact ⟨e, .inl he, (Layout.edgeKey?_addEdge (hw.edge_known he)).trans hk⟩

theorem buildEdge_of_taken {spec : EdgeSpec} (h : w.pairTaken (w.specKey spec) = true) :
    (w.buildEdge spec).2 =
      { w with edges := w.edges.push ⟨spec.source, spec.target,
          (w.ambient.edgeLayers spec.styles spec.attrs).resolve, false⟩ } := by
  rw [specKey] at h
  simp [buildEdge, h]

end Workspace

namespace Chain

variable {source : NodeId} {w : Workspace}

theorem fanEdges_append (source : NodeId) (before after : List NodeId) (w : Workspace) :
    fanEdges source (before ++ after) w =
      ((fanEdges source before w).1 ++ (fanEdges source after (fanEdges source before w).2).1,
        (fanEdges source after (fanEdges source before w).2).2) := by
  induction before generalizing w with
  | nil => rfl
  | cons target before ih => simp only [List.cons_append, fanEdges, ih]

theorem length_fanEdges (source : NodeId) (targets : List NodeId) (w : Workspace) :
    (fanEdges source targets w).1.length = targets.length := by
  induction targets generalizing w with
  | nil => rfl
  | cons target targets ih => simp only [fanEdges, List.length_cons, ih]

theorem nodes_fanEdges (source : NodeId) (targets : List NodeId) (w : Workspace) :
    (fanEdges source targets w).2.nodes = w.nodes := by
  induction targets generalizing w with
  | nil => rfl
  | cons target targets ih => simp only [fanEdges, ih, Workspace.nodes_buildEdge]

end Chain

namespace Session

variable {s t u : Session} {e : EdgeId} {pair : String × String}

/-- From `s` to `t` the edge was made and left out. Containers and ledgers are as they were,
and so are all documents, also when the edge is styled at any later time. -/
structure LeftOut (e : EdgeId) (s t : Session) : Prop where
  detached : t.workspace.Detached e
  fresh : ¬ s.workspace.HasEdge e
  nodes : t.workspace.nodes = s.workspace.nodes
  edges : ∀ e', s.workspace.HasEdge e' → t.workspace.edge? e' = s.workspace.edge? e'
  subgraphs : t.workspace.subgraphs = s.workspace.subgraphs
  graphs : t.workspace.graphs = s.workspace.graphs
  documents : ∀ g, t.workspace.dot? g = s.workspace.dot? g
  mute : ∀ u, Relation.ReflTransGen Step t u → ∀ g,
    (∀ key value, (u.perform (.setEdge e key value)).workspace.dot? g = u.workspace.dot? g) ∧
      ∀ attrs, (u.perform (.updateEdge e attrs)).workspace.dot? g = u.workspace.dot? g

/-- The pair was connected before: by an edge made while the graph that is open now was
open, or by one that the innermost open subgraph lists, if there is no open graph. -/
inductive Taken (s : Session) (pair : String × String) : Prop where
  | graph {g : GraphId} {e : EdgeId} (current : s.workspace.ambient.graph? = some g)
      (made : MadeIn g e s) (key : s.workspace.edgeKeyOf? e = some pair)
  | subgraph {id : SubgraphId} {e : EdgeId} (closed : s.workspace.ambient.graph? = none)
      (innermost : s.workspace.ambient.subgraph? = some id)
      (listed : e ∈ (s.workspace.layout.contents (.subgraph id)).edges)
      (key : s.workspace.edgeKeyOf? e = some pair)

/-- However the two names are connected once more, the edge is left out. -/
structure LeavesOut (s : Session) (pair : String × String) : Prop where
  edge : ∀ spec, (Operation.edge spec).Known s.workspace → s.workspace.specKey spec = pair →
    LeftOut (s.workspace.buildEdge spec).1 s (s.perform (.edge spec))
  relate : ∀ source target kind label,
    (Operation.relate source target kind label).Known s.workspace →
      (s.workspace.nodeName source, s.workspace.nodeName target) = pair →
        LeftOut (s.workspace.relate source target kind label).1 s
          (s.perform (.relate source target kind label))
  connect : ∀ target chain, (Operation.connect target chain).Known s.workspace →
    (s.workspace.nodeName chain.tail, s.workspace.nodeName target) = pair →
      ∃ e, (chain.connect target s.workspace).1.edges = chain.edges ++ [e] ∧
        LeftOut e s (s.perform (.connect target chain))
  /-- The targets before this one are connected first, and those after it last. -/
  connectAll : ∀ before target after chain,
    (Operation.connectAll (before ++ target :: after) chain).Known s.workspace →
      (s.workspace.nodeName chain.tail, s.workspace.nodeName target) = pair →
        (∃ e, (chain.connectAll (before ++ target :: after) s.workspace).1.edges[
            chain.edges.length + before.length]? = some e ∧
          LeftOut e (s.perform (.connectAll before chain))
            (s.perform (.connectAll (before ++ [target]) chain))) ∧
        s.perform (.connectAll (before ++ target :: after) chain) =
          (s.perform (.connectAll (before ++ [target]) chain)).perform (.connectAll after chain)

theorem detached_lasts (hs : Reachable s) (he : s.workspace.Detached e)
    (h : Relation.ReflTransGen Step s t) : t.workspace.Detached e := by
  obtain ⟨source, target, hedge⟩ := (s.workspace.detached_iff e).mp he
  exact (t.workspace.detached_iff e).mpr
    ⟨source, target, (extended_of_later hs h).edge_kept hedge⟩

theorem pairTaken_iff (hs : Reachable s) : s.workspace.pairTaken pair = true ↔ s.Taken pair := by
  cases hg : s.workspace.ambient.graph? with
  | some g =>
    rw [Workspace.pairTaken_of_graph hg, mem_pairs_iff hs]
    constructor
    · rintro ⟨e, he, hk⟩
      exact .graph hg he hk
    · rintro (⟨hg', he, hk⟩ | ⟨hnone, -, -, -⟩)
      · cases hg.symm.trans hg'
        exact ⟨_, he, hk⟩
      · cases hg.symm.trans hnone
  | none =>
    cases hsub : s.workspace.ambient.subgraph? with
    | some id =>
      rw [Workspace.pairTaken_of_subgraph hg hsub]
      constructor
      · rintro ⟨e, he, hk⟩
        exact .subgraph hg hsub he hk
      · rintro (⟨hg', -, -⟩ | ⟨-, hsub', he, hk⟩)
        · cases hg.symm.trans hg'
        · cases hsub.symm.trans hsub'
          exact ⟨_, he, hk⟩
    | none =>
      constructor
      · intro h
        simp [Workspace.pairTaken, hg, hsub] at h
      · rintro (⟨hg', -, -⟩ | ⟨-, hsub', -, -⟩)
        · cases hg.symm.trans hg'
        · cases hsub.symm.trans hsub'

/-- No operation closes a scope that was open before, or leaves one of its own open. -/
theorem Taken.operation (hs : Reachable s) (h : s.Taken pair) {op : Operation}
    (known : op.Known s.workspace) : (s.perform op).Taken pair := by
  have ht := tended_of_reachable hs
  obtain ⟨ht', hextended⟩ := ht.perform known
  have hgraph : (s.perform op).workspace.ambient.graph? = s.workspace.ambient.graph? :=
    ht.graph?_eq ht'
  have hsubgraph : (s.perform op).workspace.ambient.subgraph? = s.workspace.ambient.subgraph? := by
    rw [perform, ht.holds.eq_of_same ht'.holds]
    rfl
  have hkey : ∀ {e}, s.workspace.edgeKeyOf? e = some pair →
      (s.perform op).workspace.edgeKeyOf? e = some pair := by
    intro e hk
    rw [← Workspace.edgeKey?_layout] at hk ⊢
    rw [← hk]
    exact hextended.edgeKey?_kept ht.wellFormed (Layout.known_of_edgeKey? hk)
  cases h with
  | graph current made key =>
    exact .graph (hgraph.trans current) (made.later (.operation op known)) (hkey key)
  | subgraph closed innermost listed key =>
    exact .subgraph (hgraph.trans closed) (hsubgraph.trans innermost)
      ((hextended.listedEdges _).subset listed) (hkey key)

/-- All ways to connect come down to this one. -/
theorem Taken.leftOut (hs : Reachable s) {spec : EdgeSpec}
    (known : (Operation.edge spec).Known s.workspace)
    (h : s.Taken (s.workspace.specKey spec)) :
    LeftOut (s.workspace.buildEdge spec).1 s (s.perform (.edge spec)) := by
  have hw := (tended_of_reachable hs).wellFormed
  have hbuilt : (s.perform (.edge spec)).workspace = _ :=
    Workspace.buildEdge_of_taken ((pairTaken_iff hs).mpr h)
  have hold : ∀ e', s.workspace.HasEdge e' →
      (s.perform (.edge spec)).workspace.edge? e' = s.workspace.edge? e' := by
    intro e' he'
    rw [hbuilt, Workspace.edge?, Array.getElem?_push_lt he', Workspace.edge?,
      Array.getElem?_eq_getElem he']
  have hdetached : (s.perform (.edge spec)).workspace.Detached (s.workspace.buildEdge spec).1 := by
    rw [hbuilt, Workspace.Detached, Workspace.edge?]
    exact congrArg (Option.map Edge.attached) Array.getElem?_push_size
  refine ⟨hdetached, Nat.lt_irrefl _, by rw [hbuilt], hold, by rw [hbuilt], by rw [hbuilt], ?_, ?_⟩
  · have hlisted : ∀ c, ∀ e ∈ (s.workspace.layout.contents c).edges,
        (s.perform (.edge spec)).workspace.edge? e = s.workspace.edge? e := by
      intro c e he
      have hlt := hw.edge_known he
      rw [Workspace.length_edges_layout] at hlt
      exact hold e hlt
    exact Workspace.dot?_eq_of_edges hw hlisted (by rw [hbuilt]) (by rw [hbuilt]) (by rw [hbuilt])
  · intro u hu g
    have hmade : Reachable (s.perform (.edge spec)) := hs.tail (.operation _ known)
    have hlater := detached_lasts hmade hdetached hu
    have hwu := (tended_of_reachable (hmade.trans hu)).wellFormed
    exact ⟨fun key value => hlater.dot?_modifyEdge hwu _ g,
      fun attrs => hlater.dot?_modifyEdge hwu _ g⟩

theorem perform_connectAll_append (s : Session) (before after : List NodeId) (chain : Chain) :
    s.perform (.connectAll (before ++ after) chain) =
      (s.perform (.connectAll before chain)).perform (.connectAll after chain) := by
  simp only [perform, Workspace.perform, Chain.connectAll, Chain.fanEdges_append]

theorem Taken.leavesOut (hs : Reachable s) (h : s.Taken pair) : s.LeavesOut pair where
  edge spec known hkey := Taken.leftOut hs known (hkey ▸ h)
  relate source target kind label known hkey := by
    subst hkey
    exact Taken.leftOut hs known h
  connect target chain known hkey := by
    subst hkey
    have hedge : (Operation.edge (.plain chain.tail target)).Known s.workspace :=
      ⟨known.2.1, known.1⟩
    exact ⟨_, rfl, Taken.leftOut hs hedge h⟩
  connectAll before target after chain known hkey := by
    obtain ⟨htargets, hchain⟩ := known
    have hknown : (Operation.connectAll before chain).Known s.workspace :=
      ⟨fun n hn => htargets n (List.mem_append_left _ hn), hchain⟩
    have hnodes : (s.perform (.connectAll before chain)).workspace.nodes = s.workspace.nodes :=
      Chain.nodes_fanEdges chain.tail before s.workspace
    have hedge : (Operation.edge (.plain chain.tail target)).Known
        (s.perform (.connectAll before chain)).workspace := by
      rw [Operation.Known, Workspace.HasNode, Workspace.HasNode, hnodes]
      exact ⟨hchain.1, htargets target (List.mem_append_right _ List.mem_cons_self)⟩
    have hpair : (s.perform (.connectAll before chain)).workspace.specKey
        (.plain chain.tail target) = pair := by
      rw [← hkey, Workspace.specKey, Workspace.nodeName, Workspace.nodeName, Workspace.node?,
        Workspace.node?, hnodes]
      rfl
    have htaken : (s.perform (.connectAll before chain)).Taken _ := hpair ▸ h.operation hs hknown
    have hout := Taken.leftOut (hs.tail (.operation _ hknown)) hedge htaken
    have hlast := s.perform_connectAll_append before [target] chain
    refine ⟨⟨_, ?_, hlast ▸ hout⟩, ?_⟩
    · have hlength := Chain.length_fanEdges chain.tail before s.workspace
      simp only [Chain.connectAll, Chain.fanEdges_append, Chain.fanEdges]
      rw [List.getElem?_append_right (Nat.le_add_right _ _), Nat.add_sub_cancel_left,
        List.getElem?_append_right (Nat.le_of_eq hlength), hlength, Nat.sub_self]
      rfl
    · rw [List.append_cons]
      exact s.perform_connectAll_append (before ++ [target]) after chain

/-- The last two parts are why the way back is free: only an edge of the same pair, in the
same direction, keeps another one out, so an edge from `a` to `b` makes no difference to
those from `b` to `a`. -/
theorem first_edge_wins (hs : Reachable s) :
    (∀ pair, s.Taken pair → s.LeavesOut pair) ∧
      (∀ spec, s.workspace.containerOpen = true →
        ((s.perform (.edge spec)).workspace.Detached (s.workspace.buildEdge spec).1 ↔
          s.Taken (s.workspace.specKey spec))) ∧
      ∀ spec, (Operation.edge spec).Known s.workspace → ∀ a b, a ≠ b →
        s.workspace.specKey spec = (a, b) →
          ((s.perform (.edge spec)).Taken (b, a) ↔ s.Taken (b, a)) := by
  have ht := tended_of_reachable hs
  refine ⟨fun pair h => h.leavesOut hs, fun spec hopen => ?_, fun spec known a b hab hkey => ?_⟩
  · rw [← pairTaken_iff hs, perform, Workspace.Detached, Workspace.perform,
      Workspace.attached_buildEdge ht.anchored, hopen, Workspace.specKey]
    simp
  · have hne : (b, a) ≠ s.workspace.specKey spec := by
      rw [hkey]
      exact fun h => hab (congrArg Prod.snd h)
    have hmade : Reachable (s.perform (.edge spec)) := hs.tail (.operation _ known)
    rw [← pairTaken_iff hmade, ← pairTaken_iff hs]
    exact Workspace.pairTaken_buildEdge ht.anchored ht.wellFormed hne

theorem furnished_taken : furnished.Taken ("a", "b") := by
  have hmade : MadeIn ⟨0⟩ ⟨0⟩ furnished :=
    .made (Orderly.reachable populated_orderly) (.edge (.plain ⟨0⟩ ⟨1⟩)) edge_known_populated rfl
      (Nat.lt_irrefl 0) Nat.zero_lt_one
  exact .graph rfl hmade rfl

/-- An edge that goes back is not left out. -/
theorem furnished_first_wins :
    Reachable furnished ∧ furnished.Taken ("a", "b") ∧ furnished.LeavesOut ("a", "b") ∧
      ¬ furnished.Taken ("b", "a") ∧
      ¬ (furnished.perform (.edge (.plain ⟨0⟩ ⟨1⟩))).Taken ("b", "a") := by
  have hs := Orderly.reachable furnished_orderly
  obtain ⟨hout, hdetached, hback⟩ := first_edge_wins hs
  have hfree : ¬ furnished.Taken ("b", "a") := by
    intro h
    have hd := (hdetached (.plain ⟨1⟩ ⟨0⟩) rfl).mpr h
    cases (show some true = some false from hd)
  have hknown : (Operation.edge (.plain ⟨0⟩ ⟨1⟩)).Known furnished.workspace :=
    ⟨Nat.zero_lt_two, Nat.one_lt_two⟩
  exact ⟨hs, furnished_taken, hout _ furnished_taken, hfree,
    fun h => hfree ((hback (.plain ⟨0⟩ ⟨1⟩) hknown "a" "b" (by decide) rfl).mp h)⟩

end Session

end DotDiagram
