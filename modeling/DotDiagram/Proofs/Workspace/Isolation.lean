import DotDiagram.Proofs.Workspace.Appearance

/-! Isolation. A document changes only through what is done to it: something new comes to
stand in its tree, or something that stands there is restyled. What is opened or closed, what
is refused or left out, and whatever is made elsewhere, never shows in it. -/

namespace DotDiagram

namespace Layout

/-- Something made between `l` and `l'` stands in the tree of the graph. -/
inductive Joined (g : GraphId) (l l' : Layout) : Prop where
  | node {n : NodeId} (new : l.nodes.length ≤ n.index) (listed : l'.NodeIn g n)
  | edge {e : EdgeId} (new : l.edges.length ≤ e.index) (listed : l'.EdgeIn g e)
  | subgraph {s : SubgraphId} (new : l.subgraphs ≤ s.index)
      (within : l'.Within (.graph g) (.subgraph s))

/-- Another node takes the place of a listed one only if it was made later. -/
def Outlived (l l' : Layout) : Prop :=
  ∀ c, ∀ n ∈ (l.contents c).nodes, ∃ m ∈ (l'.contents c).nodes, n.index ≤ m.index

/-- From `l` to `l'` the tree of the graph stays as it is, unless something made meanwhile
stands there. -/
structure Confined (g : GraphId) (l l' : Layout) : Prop where
  extended : l.Extended l'
  outlived : l.Outlived l'
  tree : (∀ c, l.Within (.graph g) c → l'.contents c = l.contents c) ∨ l.Joined g l'

variable {receiver : Option Container} {current : Option GraphId} {l l' l'' : Layout}
  {g : GraphId} {c d : Container}

theorem Outlived.refl (l : Layout) : l.Outlived l := fun _ n hn => ⟨n, hn, Nat.le_refl _⟩

theorem Outlived.trans (h : l.Outlived l') (h' : l'.Outlived l'') : l.Outlived l'' := by
  intro c n hn
  obtain ⟨m, hm, hle⟩ := h c n hn
  obtain ⟨k, hk, hle'⟩ := h' c m hm
  exact ⟨k, hk, Nat.le_trans hle hle'⟩

theorem Joined.earlier (h : l'.Joined g l'') (hl : l.Extended l') : l.Joined g l'' := by
  cases h with
  | node new listed => exact .node (Nat.le_trans hl.nodes.length_le new) listed
  | edge new listed => exact .edge (Nat.le_trans hl.edges.length_le new) listed
  | subgraph new within => exact .subgraph (Nat.le_trans hl.subgraphs new) within

/-- A new node may be replaced in turn, but only by one that is new, too. -/
theorem Joined.later (h : l.Joined g l') (hc : l'.Confined g l'') : l.Joined g l'' := by
  cases h with
  | node new listed =>
    obtain ⟨c, hin, hn⟩ := listed
    obtain ⟨m, hm, hle⟩ := hc.outlived c _ hn
    exact .node (Nat.le_trans new hle) ⟨c, hc.extended.within hin, hm⟩
  | edge new listed =>
    obtain ⟨c, hin, he⟩ := listed
    exact .edge new ⟨c, hc.extended.within hin, (hc.extended.listedEdges c).subset he⟩
  | subgraph new within => exact .subgraph new (hc.extended.within within)

namespace Confined

theorem refl (l : Layout) : Confined g l l := ⟨.refl l, .refl l, .inl fun _ _ => rfl⟩

theorem trans (h : Confined g l l') (h' : Confined g l' l'') : Confined g l l'' := by
  refine ⟨h.extended.trans h'.extended, h.outlived.trans h'.outlived, ?_⟩
  rcases h.tree with hsame | hjoined
  · rcases h'.tree with hsame' | hjoined
    · exact .inl fun c hc => (hsame' c (h.extended.within hc)).trans (hsame c hc)
    · exact .inr (hjoined.earlier h.extended)
  · exact .inr (hjoined.later h')

end Confined

theorem mem_place_or {keys : List String} {name : String} {id n : NodeId} {nodes : List NodeId}
    (hn : n ∈ nodes) : n ∈ place keys name id nodes ∨ id ∈ place keys name id nodes := by
  by_cases hk : name ∈ keys
  · obtain ⟨i, hi⟩ := List.mem_iff_getElem?.mp hn
    have hlt := (List.getElem?_eq_some_iff.mp hi).1
    rw [place_of_mem id nodes hk]
    by_cases hat : keys.idxOf name = i
    · rw [hat]
      exact .inr (List.mem_set hlt id)
    · refine .inl (List.mem_iff_getElem?.mpr ⟨i, ?_⟩)
      rw [List.getElem?_set, if_neg hat, hi]
  · rw [place_of_not_mem id nodes hk]
    exact .inl (List.mem_append_left _ hn)

theorem self_mem_place (hw : l.WellFormed) (c : Container) (name : String) (id : NodeId) :
    id ∈ place (l.keys c) name id (l.contents c).nodes := by
  by_cases hk : name ∈ l.keys c
  · cases c with
    | graph g =>
      rw [hw.unkeyed g] at hk
      cases hk
    | subgraph s =>
      have hlt := List.idxOf_lt_length_iff.mpr hk
      have hlen := congrArg List.length (hw.named s)
      rw [List.length_map] at hlen
      rw [place_of_mem id _ hk]
      exact List.mem_set (hlen ▸ hlt) id
  · rw [place_of_not_mem id _ hk]
    exact List.mem_append_right _ List.mem_cons_self

namespace Grow

theorem contents_of_ne (h : Grow receiver current l l') (hc : receiver ≠ some c) :
    l'.contents c = l.contents c := by
  cases h with
  | node name fresh => rw [contents_addNode, if_neg hc]
  | edge _ _ _ => rw [contents_addEdge, if_neg fun h => hc h.2]
  | subgraph => rw [contents_addSubgraph, if_neg hc]
  | graph => rfl

theorem outlived (h : Grow receiver current l l') (hw : l.WellFormed) : l.Outlived l' := by
  intro c n hn
  cases h with
  | node name fresh =>
    rw [contents_addNode]
    by_cases hc : receiver = some c
    · rw [if_pos hc]
      rcases mem_place_or hn with hn' | hm
      · exact ⟨n, hn', Nat.le_refl _⟩
      · exact ⟨_, hm, Nat.le_of_lt (hw.node_known hn)⟩
    · rw [if_neg hc]
      exact ⟨n, hn, Nat.le_refl _⟩
  | edge _ _ _ => exact ⟨n, by rwa [contents_nodes_addEdge], Nat.le_refl _⟩
  | subgraph => exact ⟨n, by rwa [contents_nodes_addSubgraph], Nat.le_refl _⟩
  | graph => exact ⟨n, hn, Nat.le_refl _⟩

/-- What the receiver lists anew is what was made. -/
theorem joined (h : Grow receiver current l l') (hw : l.WellFormed) (hc : receiver = some c)
    (hin : l.Within (.graph g) c) : l'.contents c = l.contents c ∨ l.Joined g l' := by
  have hin' := h.extended.within hin
  cases h with
  | node name fresh =>
    refine .inr (.node (n := ⟨l.nodes.length⟩) (Nat.le_refl _) ⟨c, hin', ?_⟩)
    rw [contents_addNode, if_pos hc]
    exact self_mem_place hw c name _
  | @edge source target attached _ _ _ =>
    cases attached with
    | false => exact .inl (by simp [contents_addEdge])
    | true =>
      refine .inr (.edge (e := ⟨l.edges.length⟩) (Nat.le_refl _) ⟨c, hin', ?_⟩)
      exact (mem_edges_addEdge _ _ _ _ _ _).mpr (.inr ⟨rfl, rfl, hc⟩)
  | subgraph =>
    have hs : (⟨l.subgraphs⟩ : SubgraphId) ∈ ((l.addSubgraph receiver).contents c).subgraphs :=
      (mem_subgraphs_addSubgraph _ _).mpr (.inr ⟨rfl, hc⟩)
    exact .inr (.subgraph (s := ⟨l.subgraphs⟩) (Nat.le_refl _) (hin'.tail ⟨_, rfl, hs⟩))
  | graph => exact .inl rfl

theorem confined (h : Grow receiver current l l') (hw : l.WellFormed) : l.Confined g l' := by
  refine ⟨h.extended, h.outlived hw, ?_⟩
  by_cases hr : ∃ c, receiver = some c ∧ l.Within (.graph g) c
  · obtain ⟨c, hc, hin⟩ := hr
    rcases h.joined hw hc hin with hsame | hjoined
    · refine .inl fun d _ => ?_
      by_cases hd : receiver = some d
      · cases hc.symm.trans hd
        exact hsame
      · exact h.contents_of_ne hd
    · exact .inr hjoined
  · exact .inl fun d hd => h.contents_of_ne fun he => hr ⟨d, he, hd⟩

end Grow

theorem Grown.confined (h : Grown receiver current l l') (hw : l.WellFormed)
    (hr : ∀ c, receiver = some c → l.Has c) : l.Confined g l' := by
  induction h with
  | refl => exact .refl l
  | tail hs hg ih => exact ih.trans (hg.confined (Grown.wellFormed hs hw hr))

/-- The receiver stands outside of the tree. -/
def Outside (l : Layout) (g : GraphId) (receiver : Option Container) : Prop :=
  ∀ c, receiver = some c → ¬ l.Within (.graph g) c

theorem within_of_same (hs : ∀ d, l.Within c d → l'.contents d = l.contents d)
    (h : l'.Within c d) : l.Within c d := by
  induction h with
  | refl => exact .refl
  | tail _ hd ih =>
    obtain ⟨s, rfl, hm⟩ := hd
    rw [hs _ ih] at hm
    exact ih.tail ⟨s, rfl, hm⟩

theorem Grown.same_of_outside (h : Grown receiver current l l') (ho : l.Outside g receiver) :
    ∀ c, l.Within (.graph g) c → l'.contents c = l.contents c := by
  induction h with
  | refl => exact fun _ _ => rfl
  | tail _ hg ih => exact fun c hc => (hg.contents_of_ne fun hr => ho c hr hc).trans (ih c hc)

end Layout

/-- The operation sets or updates something that shows in the document of the graph: the
graph, or what stands in its tree. -/
def Operation.Restyles (w : Workspace) (g : GraphId) : Operation → Prop
  | .setNode id _ _ | .updateNode id _ => w.layout.NodeIn g id
  | .setEdge id _ _ | .updateEdge id _ => w.layout.EdgeIn g id
  | .setChain _ _ chain | .updateChain _ chain => ∃ e ∈ chain.edges, w.layout.EdgeIn g e
  | .setSubgraph id _ _ => w.layout.Within (.graph g) (.subgraph id)
  | .setGraph id _ _ => id = g
  | .graph _ | .subgraph _ | .node _ | .edge _ | .relate _ _ _ _ | .connect _ _
  | .connectAll _ _ | .template _ | .classDiagram _ | .classGraph _ _ | .mindMap _ => False

namespace Workspace

variable {w w' : Workspace} {entries : List Entered} {g : GraphId} {op : Operation}

/-- Either nothing that exists is restyled, or only things that do not show. -/
theorem keepsLooks_or_dot? (hw : w.layout.WellFormed) (known : op.Known w)
    (h : ¬ op.Restyles w g) : KeepsLooks w (w.perform op) ∨ (w.perform op).dot? g = w.dot? g := by
  cases op with
  | setChain key value chain =>
    refine .inr (dot?_foldl hw (fun _ e => layout_setEdge e key value) ?_ fun e he hin => ?_)
    · exact fun _ _ hw' hnot => dot?_modifyEdge hw' hnot fun _ => rfl
    · exact h ⟨e, he, hin⟩
  | updateChain attrs chain =>
    refine .inr (dot?_foldl hw (fun _ e => layout_updateEdge e attrs) ?_ fun e he hin => ?_)
    · exact fun _ _ hw' hnot => dot?_modifyEdge hw' hnot fun _ => rfl
    · exact h ⟨e, he, hin⟩
  | setNode id key value => exact .inr (dot?_modifyNode hw h fun _ => rfl)
  | updateNode id attrs => exact .inr (dot?_modifyNode hw h fun _ => rfl)
  | setEdge id key value => exact .inr (dot?_modifyEdge hw h fun _ => rfl)
  | updateEdge id attrs => exact .inr (dot?_modifyEdge hw h fun _ => rfl)
  | setSubgraph id key value =>
    exact .inr (dot?_modifySubgraph hw h (fun _ => rfl) fun _ => rfl)
  | setGraph id key value => exact .inr (dot?_modifyGraph hw h (fun _ => rfl) fun _ => rfl)
  | _ => exact .inl (KeepsLooks.respected.perform known trivial)

/-- Without scopes of its own an operation makes everything for one receiver. -/
theorem Tended.course_grown (hc : Course (fun _ _ => False) w w') (h : w.Tended entries) :
    w'.Tended entries ∧ w'.ambient = w.ambient ∧
      w.layout.Grown w.ambient.receiver? w.ambient.graph? w'.layout := by
  induction hc with
  | refl w => exact ⟨h, rfl, .refl⟩
  | act _ ha ih =>
    obtain ⟨hv, hambient, hgrown⟩ := ih h
    obtain ⟨hambient', hgrown'⟩ := ha.grown hv.anchored
    rw [hambient] at hambient' hgrown'
    exact ⟨(hv.act ha).1, hambient', hgrown.trans hgrown'⟩
  | scope _ hp => exact hp.elim

theorem subgraph?_opened_subgraph (w : Workspace) (id : SubgraphId) :
    (w.opened (.subgraph id)).subgraph? = some id := by
  cases ht : (Opening.subgraph id).themeOf w <;> simp only [opened, ht] <;> rfl

theorem receiver?_opened_subgraph (w : Workspace) (id : SubgraphId) :
    (w.opened (.subgraph id)).receiver? = some (.subgraph id) := by
  rw [Ambient.receiver?, subgraph?_opened_subgraph]
  rfl

theorem receiver?_opened_graph (w : Workspace) (id : GraphId) :
    (w.opened (.graph id)).receiver? =
      (w.ambient.subgraph?.map .subgraph).or (some (.graph id)) := by
  cases ht : (Opening.graph id).themeOf w <;> simp only [opened, ht] <;> rfl

/-- What is drawn in a scope that is closed again goes to the receiver in that scope. -/
theorem Tended.scope_grown (h : w.Tended entries) {o : Opening} (known : o.Known w)
    (hd : Drawing { w with ambient := w.opened o } w') :
    w.layout.Grown (w.opened o).receiver? (w.opened o).graph?
      (w'.leave (o.held w).scope).2.layout := by
  rw [layout_leave]
  exact ((h.opened known).course_grown ((Course.refl _).drawing hd)).2.2

theorem Tended.template_same (h : w.Tended entries) (hg : w.HasGraph g)
    (ho : w.layout.Outside g w.ambient.receiver?) (t : Template) :
    ∀ c, w.layout.Within (.graph g) c → (t.build w).2.layout.contents c = w.layout.contents c := by
  cases hclash : Template.firstClash w [] t.names with
  | some name =>
    rw [Template.build_of_clash hclash]
    exact fun _ _ => rfl
  | none =>
    cases hwrapper : t.wrapper with
    | none =>
      rw [Template.build_of_bare hclash hwrapper]
      have hd := w.drawing_buildNodes t.factories .empty
      exact Layout.Grown.same_of_outside (h.course_grown ((Course.refl w).drawing hd)).2.2 ho
    | some name =>
      let u := (w.buildSubgraph (t.wrapperSpec name)).2
      have ha : Act w u := .subgraph (t.wrapperSpec name)
      obtain ⟨hu, hextended⟩ := h.act ha
      have hmade := Layout.Grown.same_of_outside (ha.grown h.anchored).2 ho
      -- The wrapper is none of the subgraphs that the tree had.
      have hout : u.layout.Outside g (u.opened (.subgraph ⟨w.subgraphs.size⟩)).receiver? := by
        intro c hc hin
        rw [receiver?_opened_subgraph] at hc
        cases hc
        have hhas : w.layout.Has (.graph g) := hg
        exact Nat.lt_irrefl _
          (h.wellFormed.has_of_within hhas (Layout.within_of_same hmade hin))
      have hd := drawing_buildNodes (t.wrapped name w) t.factories .empty
      have known : (Opening.subgraph ⟨w.subgraphs.size⟩).Known u :=
        w.hasSubgraph_buildSubgraph (t.wrapperSpec name)
      have hscope := Layout.Grown.same_of_outside (hu.scope_grown known hd) hout
      rw [Template.build_of_wrapper hclash hwrapper]
      exact fun c hc => (hscope c (hextended.within hc)).trans (hmade c hc)

/-- A class graph goes to the innermost open subgraph only if there is one. -/
theorem Tended.classGraph_same (h : w.Tended entries) (hg : w.HasGraph g)
    (ho : w.layout.Outside g (w.ambient.subgraph?.map .subgraph)) (diagram : ClassDiagram)
    (options : ClassGraphOptions) :
    ∀ c, w.layout.Within (.graph g) c →
      (w.buildClassGraph diagram options).2.layout.contents c = w.layout.contents c := by
  let u := (w.buildGraph options.spec).2
  have hu : u.Tended entries := (h.act (.graph options.spec)).1
  have hmade : u.layout = w.layout.pushGraph := w.layout_buildGraph options.spec
  unfold buildClassGraph
  cases hfree : u.ambient.graph? with
  | some outer =>
    have he := enterGraph_eq_of_some (w.buildGraph options.spec).1 hfree
    simp only [u] at he hmade
    simp only [he, hmade]
    exact fun _ _ => rfl
  | none =>
    have hout : u.layout.Outside g (u.opened (.graph ⟨w.graphs.size⟩)).receiver? := by
      intro c hc hin
      rw [receiver?_opened_graph] at hc
      rcases Option.or_eq_some_iff.mp hc with hsub | ⟨-, hgraph⟩
      · exact ho c hsub (by rwa [hmade] at hin)
      · cases hgraph
        cases hu.wellFormed.root_unique hin .refl
        exact Nat.lt_irrefl _ hg
    have hd := drawing_buildClassDiagram
      { u with ambient := u.opened (.graph ⟨w.graphs.size⟩) } diagram
    have known : (Opening.graph ⟨w.graphs.size⟩).Known u := w.hasGraph_buildGraph options.spec
    have hscope := Layout.Grown.same_of_outside (hu.scope_grown known hd) hout
    have he := enterGraph_eq_of_none (w.buildGraph options.spec).1 hfree
    rw [hmade] at hscope
    simp only [u] at he hscope
    simp only [he]
    exact hscope

/-- What is made goes to the receiver, or to a container made with it. -/
theorem Tended.perform_same (h : w.Tended entries) (known : op.Known w) (hg : w.HasGraph g)
    (ho : w.layout.Outside g w.ambient.receiver?) :
    ∀ c, w.layout.Within (.graph g) c → (w.perform op).layout.contents c = w.layout.contents c := by
  by_cases hscoped : (∃ t, op = .template t) ∨ ∃ diagram options, op = .classGraph diagram options
  · rcases hscoped with ⟨t, rfl⟩ | ⟨diagram, options, rfl⟩
    · exact h.template_same hg ho t
    · refine h.classGraph_same hg (fun c hc => ho c ?_) diagram options
      rw [Ambient.receiver?, hc]
      rfl
  · obtain ⟨htemplate, hclass⟩ := not_or.mp hscoped
    have hc : Course (fun _ _ => False) w (w.perform op) := by
      apply perform_course known
      · exact fun t _ heq _ _ => htemplate ⟨t, heq⟩
      · exact fun diagram options heq _ => hclass ⟨diagram, options, heq⟩
    exact Layout.Grown.same_of_outside (h.course_grown hc).2.2 ho

end Workspace

namespace Session

variable {s t : Session} {g : GraphId}

/-- What the document of a graph is isolated from. -/
structure Isolated (s : Session) (g : GraphId) : Prop where
  step : ∀ t, Step s t → t.workspace.dot? g = s.workspace.dot? g ∨
    s.workspace.layout.Joined g t.workspace.layout ∨
    ∃ op : Operation, t = s.perform op ∧ op.Restyles s.workspace g
  opened : ∀ o t, s.Opens o t → t.workspace.dot? g = s.workspace.dot? g
  refused : ∀ o e w, s.workspace.enter o = (.error e, w) → w.dot? g = s.workspace.dot? g
  dropped : ∀ unwinding held others,
    (s.drop unwinding held others).workspace.dot? g = s.workspace.dot? g
  /-- A node is refused. -/
  refusedNode : ∀ spec e, (s.workspace.buildNode spec).1 = .error e →
    (s.perform (.node spec)).workspace.dot? g = s.workspace.dot? g
  /-- An edge is left out. -/
  duplicateEdge : ∀ spec, (Operation.edge spec).Known s.workspace →
    (s.perform (.edge spec)).workspace.Detached (s.workspace.buildEdge spec).1 →
      (s.perform (.edge spec)).workspace.dot? g = s.workspace.dot? g
  otherGraph : ∀ spec, (s.perform (.graph spec)).workspace.dot? g = s.workspace.dot? g
  otherClassGraph : ∀ diagram options, s.workspace.ambient.subgraph? = none →
    (s.perform (.classGraph diagram options)).workspace.dot? g = s.workspace.dot? g
  /-- Something is done while another document, or none, receives what is made. -/
  elsewhere : s.workspace.layout.Outside g s.workspace.ambient.receiver? →
    ∀ op : Operation, op.Known s.workspace → ¬ op.Restyles s.workspace g →
      (s.perform op).workspace.dot? g = s.workspace.dot? g

theorem confined_of_step (hs : Reachable s) (hst : Step s t) :
    s.workspace.layout.Confined g t.workspace.layout :=
  chained .refl .trans (fun ht ha =>
    Layout.Grown.confined (ha.grown ht.anchored).2 ht.wellFormed ht.receiver_known) hs (.single hst)

theorem dot?_of_opens (hw : s.workspace.layout.WellFormed) (hg : s.workspace.HasGraph g)
    {o : Opening} (h : s.Opens o t) : t.workspace.dot? g = s.workspace.dot? g := by
  obtain ⟨rfl, -⟩ := h.eq_opened
  exact (Workspace.KeepsLooks.respected.weakly.withAmbient _ _).dot? hw hg fun _ _ => rfl

theorem dot?_drop (hw : s.workspace.layout.WellFormed) (hg : s.workspace.HasGraph g)
    (unwinding : Bool) (held : Held) (others : List Held) :
    (s.drop unwinding held others).workspace.dot? g = s.workspace.dot? g := by
  have hl := s.layout_drop unwinding held others
  rw [drop, Workspace.dropScope_eq_leave] at hl ⊢
  refine (Workspace.KeepsLooks.respected.weakly.leave _ held.scope).dot? hw hg fun c _ => ?_
  exact congrArg (Layout.contents · c) hl

theorem dot?_perform {op : Operation} (hw : s.workspace.layout.WellFormed)
    (hg : s.workspace.HasGraph g) (known : op.Known s.workspace)
    (hr : ¬ op.Restyles s.workspace g)
    (hc : ∀ c, s.workspace.layout.Within (.graph g) c →
      (s.workspace.perform op).layout.contents c = s.workspace.layout.contents c) :
    (s.perform op).workspace.dot? g = s.workspace.dot? g := by
  rcases Workspace.keepsLooks_or_dot? hw known hr with hk | hd
  · exact hk.dot? hw hg hc
  · exact hd

theorem dot?_of_step (hs : Reachable s) (hg : s.workspace.HasGraph g) (hst : Step s t) :
    t.workspace.dot? g = s.workspace.dot? g ∨
      s.workspace.layout.Joined g t.workspace.layout ∨
      ∃ op : Operation, t = s.perform op ∧ op.Restyles s.workspace g := by
  have hw := (tended_of_reachable hs).wellFormed
  have hconfined := confined_of_step (g := g) hs hst
  cases hst with
  | operation op known =>
    by_cases hr : op.Restyles s.workspace g
    · exact .inr (.inr ⟨op, rfl, hr⟩)
    · rcases hconfined.tree with hc | hjoined
      · exact .inl (dot?_perform hw hg known hr hc)
      · exact .inr (.inl hjoined)
  | opened h => exact .inl (dot?_of_opens hw hg h)
  | refused _ he =>
    obtain rfl := (Workspace.enter_error he).2.2
    exact .inl rfl
  | dropped unwinding _ => exact .inl (dot?_drop hw hg unwinding _ _)

theorem dot?_refusedNode (ht : s.workspace.Tended s.entries) (hg : s.workspace.HasGraph g)
    {spec : NodeSpec} {e : Error} (he : (s.workspace.buildNode spec).1 = .error e) :
    (s.perform (.node spec)).workspace.dot? g = s.workspace.dot? g := by
  refine dot?_perform ht.wellFormed hg trivial id fun c _ => ?_
  rcases ht.anchored.layout_buildNode spec with ⟨-, hl⟩ | ⟨-, hok, -⟩
  · exact congrArg (Layout.contents · c) hl
  · cases hok.symm.trans he

theorem dot?_duplicateEdge (ht : s.workspace.Tended s.entries) (hg : s.workspace.HasGraph g)
    {spec : EdgeSpec} (known : (Operation.edge spec).Known s.workspace)
    (hdetached : (s.perform (.edge spec)).workspace.Detached (s.workspace.buildEdge spec).1) :
    (s.perform (.edge spec)).workspace.dot? g = s.workspace.dot? g := by
  have hattached := Workspace.attached_buildEdge ht.anchored spec
  rw [Workspace.Detached, perform, Workspace.perform] at hdetached
  rw [hdetached] at hattached
  refine dot?_perform ht.wellFormed hg known id fun c _ => ?_
  have hl := (ht.anchored.layout_buildEdge spec).2
  rw [← Option.some.inj hattached] at hl
  rw [Workspace.perform, hl, Layout.contents_addEdge, if_neg fun h => Bool.false_ne_true h.1]

theorem dot?_otherGraph (hw : s.workspace.layout.WellFormed) (hg : s.workspace.HasGraph g)
    (spec : GraphSpec) : (s.perform (.graph spec)).workspace.dot? g = s.workspace.dot? g := by
  refine dot?_perform hw hg trivial id fun c _ => ?_
  rw [Workspace.perform, Workspace.layout_buildGraph]
  rfl

theorem dot?_otherClassGraph (ht : s.workspace.Tended s.entries) (hg : s.workspace.HasGraph g)
    (hnone : s.workspace.ambient.subgraph? = none) (diagram : ClassDiagram)
    (options : ClassGraphOptions) :
    (s.perform (.classGraph diagram options)).workspace.dot? g = s.workspace.dot? g := by
  refine dot?_perform ht.wellFormed hg trivial id ?_
  refine ht.classGraph_same hg (fun c hc => ?_) diagram options
  rw [hnone] at hc
  cases hc

/-- The text of a document changes only if something made in this step stands in its tree, or
if something that stands there is restyled. -/
theorem document_isolated (hs : Reachable s) (hg : s.workspace.HasGraph g) : s.Isolated g := by
  have ht := tended_of_reachable hs
  have hw := ht.wellFormed
  refine ⟨fun _ hst => dot?_of_step hs hg hst, fun _ _ h => dot?_of_opens hw hg h, ?_,
    dot?_drop hw hg, fun _ _ he => dot?_refusedNode ht hg he,
    fun _ known hdetached => dot?_duplicateEdge ht hg known hdetached,
    dot?_otherGraph hw hg, ?_, ?_⟩
  · intro o e w he
    rw [(Workspace.enter_error he).2.2]
  · exact fun diagram options hnone => dot?_otherClassGraph ht hg hnone diagram options
  · exact fun ho op known hr => dot?_perform hw hg known hr (ht.perform_same known hg ho)

/-- A second node of the name is refused in the subgraph, and the document has the first. -/
theorem furnished_isolated :
    Reachable furnished ∧ furnished.workspace.HasGraph ⟨0⟩ ∧ furnished.Isolated ⟨0⟩ ∧
      (furnished.workspace.buildNode (.named "a")).1 = .error (.duplicateNode "a") ∧
      (furnished.perform (.node (.named "a"))).workspace.dot? ⟨0⟩ =
        furnished.workspace.dot? ⟨0⟩ := by
  have hs := Orderly.reachable furnished_orderly
  have hg : furnished.workspace.HasGraph ⟨0⟩ := Nat.zero_lt_one
  have hisolated := document_isolated hs hg
  exact ⟨hs, hg, hisolated, rfl, hisolated.refusedNode _ _ rfl⟩

end Session

end DotDiagram
