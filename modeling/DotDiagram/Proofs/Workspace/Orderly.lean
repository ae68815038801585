import DotDiagram.Proofs.Workspace.Course
import DotDiagram.Proofs.Workspace.Discipline
import DotDiagram.Proofs.Workspace.Ledger

/-! Orderly sessions. Scopes are closed in the reverse order of opening, and a subgraph is
opened only while the graph at the root of its tree is open. In these sessions whatever
receives stands in the tree of the open graph, so that ledgers and trees agree. -/

namespace DotDiagram

/-- The graph at the root of the tree of a subgraph is open when the subgraph is opened. -/
def Opening.Inside (w : Workspace) : Opening → Prop
  | .subgraph id =>
    ∃ g, w.ambient.graph? = some g ∧ w.layout.Within (.graph g) (.subgraph id)
  | .graph _ | .nodeStyle _ | .edgeStyle _ | .theme _ => True

/-- A group opens its wrapper as soon as that is made. -/
def Operation.Inside (w : Workspace) : Operation → Prop
  | .template t => ∀ name, t.wrapper = some name → Template.firstClash w [] t.names = none →
      (Opening.subgraph (w.buildSubgraph (t.wrapperSpec name)).1).Inside
        (w.buildSubgraph (t.wrapperSpec name)).2
  | _ => True

namespace Session

inductive OrderlyStep (s : Session) : Session → Prop where
  | operation (op : Operation) (known : op.Known s.workspace) (inside : op.Inside s.workspace) :
      OrderlyStep s (s.perform op)
  | opened {opening : Opening} {t : Session} (h : s.Opens opening t)
      (inside : opening.Inside s.workspace) : OrderlyStep s t
  | refused {opening : Opening} {e : Error} {w : Workspace} (known : opening.Known s.workspace)
      (h : s.workspace.enter opening = (.error e, w)) : OrderlyStep s { s with workspace := w }
  | closed {outer : List Held} {held : Held} (unwinding : Bool) (h : s.held = outer ++ [held]) :
      OrderlyStep s (s.drop unwinding held outer)

abbrev Orderly (s : Session) : Prop := Relation.ReflTransGen OrderlyStep start s

variable {s t : Session}

theorem OrderlyStep.step (h : OrderlyStep s t) : Step s t := by
  cases h with
  | operation op known inside => exact .operation op known
  | opened h inside => exact .opened h
  | refused known h => exact .refused known h
  | @closed outer held unwinding h =>
    have hd := Step.dropped unwinding h
    rwa [List.append_nil] at hd

theorem Orderly.reachable (h : Orderly s) : Reachable s :=
  Relation.ReflTransGen.mono (fun _ _ hst => hst.step) _ _ h

end Session

namespace Workspace

variable {w w' : Workspace} {entries : List Entered} {o : Opening} {held : Held} {g : GraphId}

theorem hasSubgraph_buildSubgraph (w : Workspace) (spec : SubgraphSpec) :
    (w.buildSubgraph spec).2.HasSubgraph (w.buildSubgraph spec).1 := by
  have hsize : ∀ (w : Workspace) id, (w.listSubgraph id).subgraphs.size = w.subgraphs.size := by
    intro w id
    unfold listSubgraph
    split <;> simp [modifySubgraph, modifyGraph]
  simp [buildSubgraph, HasSubgraph, hsize]

theorem hasGraph_buildGraph (w : Workspace) (spec : GraphSpec) :
    (w.buildGraph spec).2.HasGraph (w.buildGraph spec).1 := by
  simp [buildGraph, HasGraph]

theorem perform_course_known {op : Operation} (known : op.Known w) :
    Course (fun w o => o.Known w) w (w.perform op) :=
  perform_course known (fun t name _ _ _ => w.hasSubgraph_buildSubgraph (t.wrapperSpec name))
    fun _ options _ _ => w.hasGraph_buildGraph options.spec

theorem Tended.perform (h : w.Tended entries) {op : Operation} (known : op.Known w) :
    (w.perform op).Tended entries ∧ w.layout.Extended (w.perform op).layout :=
  h.course (fun _ _ hk => hk) (perform_course_known known)

theorem Tended.exists_subgraph_entry (h : w.Tended entries) {id : SubgraphId}
    (hs : w.ambient.subgraph? = some id) : ∃ e ∈ entries, e.opening = .subgraph id := by
  obtain ⟨x, hx, rfl⟩ := Option.map_eq_some_iff.mp hs
  obtain ⟨e, he, ho, -⟩ := h.holds.mem_subgraphs.mp (List.mem_of_mem_head? hx)
  exact ⟨e, he, ho⟩

theorem Tended.exists_graph_entry (h : w.Tended entries) (hg : w.ambient.graph? = some g) :
    ∃ e ∈ entries, e.opening = .graph g := by
  obtain ⟨x, hx, rfl⟩ := Option.map_eq_some_iff.mp hg
  obtain ⟨e, he, ho, -⟩ := h.holds.mem_graphs.mp (List.mem_of_mem_head? hx)
  exact ⟨e, he, ho⟩

/-- At most one graph is open, and open subgraphs stand in it and were opened later. The
ledgers agree with the trees. -/
structure Settled (w : Workspace) (entries : List Entered) : Prop extends Tended w entries where
  oneGraph : w.ambient.graphs.length ≤ 1
  nested : ∀ e ∈ entries, ∀ id, e.opening = .subgraph id →
    ∃ f ∈ entries, f.id < e.id ∧ ∃ g, f.opening = .graph g ∧
      w.layout.Within (.graph g) (.subgraph id)
  ledgered : w.layout.Ledgered

/-- What is opened on the way. -/
def Permitted (w : Workspace) (o : Opening) : Prop :=
  o.Known w ∧ o.Inside w ∧ (o.slot = .graph → w.ambient.graph? = none)

namespace Settled

theorem graph_open (h : w.Settled entries) {f : Entered} (hf : f ∈ entries)
    (ho : f.opening = .graph g) : w.ambient.graph? = some g := by
  have hm : (⟨f.id, g⟩ : Entry GraphId) ∈ w.ambient.graphs :=
    h.holds.mem_graphs.mpr ⟨f, hf, ho, rfl⟩
  have hone := h.oneGraph
  unfold Ambient.graph?
  match hgraphs : w.ambient.graphs with
  | [] => rw [hgraphs] at hm; cases hm
  | [x] =>
    rw [hgraphs, List.mem_singleton] at hm
    rw [← hm]
    rfl
  | _ :: _ :: _ => simp [hgraphs] at hone

theorem rooted (h : w.Settled entries) :
    w.layout.Rooted w.ambient.receiver? w.ambient.graph? := by
  have hsub : ∀ id, w.ambient.subgraph? = some id →
      ∃ g, w.ambient.graph? = some g ∧ w.layout.Within (.graph g) (.subgraph id) := by
    intro id hs
    obtain ⟨e, he, ho⟩ := h.exists_subgraph_entry hs
    obtain ⟨f, hf, -, g, hg, hin⟩ := h.nested e he id ho
    exact ⟨g, h.graph_open hf hg, hin⟩
  unfold Ambient.receiver?
  constructor
  · intro hnone
    cases hs : w.ambient.subgraph? with
    | none => rw [hnone]; rfl
    | some id =>
      obtain ⟨g, hg, -⟩ := hsub id hs
      cases hnone.symm.trans hg
  · intro g hg
    cases hs : w.ambient.subgraph? with
    | none => exact ⟨.graph g, by rw [hg]; rfl, .refl⟩
    | some id =>
      obtain ⟨g', hg', hin⟩ := hsub id hs
      cases hg.symm.trans hg'
      exact ⟨.subgraph id, rfl, hin⟩

theorem act (h : w.Settled entries) (ha : Act w w') :
    w'.Settled entries ∧
      ∀ c, (w.layout.contents c).nodes <+: (w'.layout.contents c).nodes := by
  obtain ⟨ht, hl⟩ := h.toTended.act ha
  obtain ⟨hambient, hgrown⟩ := ha.grown h.anchored
  obtain ⟨hledgered, hp⟩ := hgrown.ledgered h.ledgered h.wellFormed h.rooted h.receiver_known
  refine ⟨⟨ht, hambient ▸ h.oneGraph, ?_, hledgered⟩, hp⟩
  intro e he id ho
  obtain ⟨f, hf, hlt, g, hg, hin⟩ := h.nested e he id ho
  exact ⟨f, hf, hlt, g, hg, hl.within hin⟩

theorem opened (h : w.Settled entries) (hp : w.Permitted o) :
    { w with ambient := w.opened o }.Settled (entries ++ (o.held w).entries) := by
  obtain ⟨known, inside, free⟩ := hp
  have ht := h.toTended.opened known
  refine ⟨ht, ?_, ?_, h.ledgered⟩
  · have hlen := w.graphs_opened_length o
    simp only [hlen]
    split
    · next hslot =>
      have hnil : w.ambient.graphs = [] := by simpa [Ambient.graph?] using free hslot
      simp [hnil]
    · exact h.oneGraph
  · intro e he id ho
    rcases List.mem_append.mp he with he | he
    · obtain ⟨f, hf, hlt, g, hg, hin⟩ := h.nested e he id ho
      exact ⟨f, List.mem_append_left _ hf, hlt, g, hg, hin⟩
    · rcases Opening.opening_of_mem_held he with hopen | ⟨t, hopen⟩
      · obtain rfl := hopen.symm.trans ho
        obtain ⟨g, hg, hin⟩ := inside
        obtain ⟨f, hf, hgraph⟩ := h.exists_graph_entry hg
        have hlt := (List.pairwise_append.mp ht.holds.ordered).2.2 f hf e he
        exact ⟨f, List.mem_append_left _ hf, hlt, g, hgraph, hin⟩
      · -- The theme that a container enters before itself opens no subgraph.
        cases hopen.symm.trans ho

theorem leave (h : w.Settled (entries ++ held.entries))
    (ht : ∀ t ∈ held.theme, t.opening.slot = .theme) :
    (w.leave held.scope).2.Settled entries := by
  have htended := h.toTended.leave ht
  have hl := w.layout_leave held.scope
  refine ⟨htended, ?_, ?_, by rw [hl]; exact h.ledgered⟩
  · have hsub : (stackOf Opening.graph? entries).Sublist
        (stackOf Opening.graph? (entries ++ held.entries)) :=
      stackOf_sublist (List.sublist_append_left _ _)
    rw [← htended.holds.graphs, ← h.holds.graphs] at hsub
    exact Nat.le_trans hsub.length_le h.oneGraph
  · intro e he id ho
    rw [hl]
    obtain ⟨f, hf, hlt, hgraph⟩ := h.nested e (List.mem_append_left _ he) id ho
    rcases List.mem_append.mp hf with hf | hf
    · exact ⟨f, hf, hlt, hgraph⟩
    · -- What is closed now was opened after all that stays, so the graph is not among it.
      have hgt := (List.pairwise_append.mp h.holds.ordered).2.2 e he f hf
      omega

theorem course (hc : Course Permitted w w') (h : w.Settled entries) :
    w'.Settled entries ∧
      ∀ c, (w.layout.contents c).nodes <+: (w'.layout.contents c).nodes := by
  induction hc generalizing entries with
  | refl w => exact ⟨h, fun c => List.prefix_refl _⟩
  | act _ ha ih =>
    obtain ⟨hv, hp⟩ := ih h
    obtain ⟨hw, hp'⟩ := hv.act ha
    exact ⟨hw, fun c => (hp c).trans (hp' c)⟩
  | @scope u v w o _ hpermitted _ ih ih' =>
    obtain ⟨hv, hp⟩ := ih h
    obtain ⟨hw, hp'⟩ := ih' (hv.opened hpermitted)
    refine ⟨hw.leave (o.held_theme v), ?_⟩
    rw [layout_leave]
    exact fun c => (hp c).trans (hp' c)

theorem perform (h : w.Settled entries) {op : Operation} (known : op.Known w)
    (inside : op.Inside w) :
    (w.perform op).Settled entries ∧
      ∀ c, (w.layout.contents c).nodes <+: ((w.perform op).layout.contents c).nodes := by
  apply h.course
  apply perform_course known
  · rintro t name rfl hname hfree
    exact ⟨w.hasSubgraph_buildSubgraph (t.wrapperSpec name), inside name hname hfree, nofun⟩
  · rintro diagram options rfl hnone
    exact ⟨w.hasGraph_buildGraph options.spec, trivial, fun _ => hnone⟩

end Settled

end Workspace

namespace Session

variable {s t : Session}

theorem Opens.known {o : Opening} (h : s.Opens o t) : o.Known s.workspace := by
  obtain ⟨known, -⟩ := h
  exact known

theorem tended_start : start.workspace.Tended start.entries := by
  refine ⟨sound_start.ambient, nofun, ?_⟩
  rw [start, Workspace.layout_empty]
  exact .empty

theorem settled_start : start.workspace.Settled start.entries := by
  refine ⟨tended_start, Nat.zero_le 1, nofun, ?_⟩
  rw [start, Workspace.layout_empty]
  exact .empty

theorem layout_drop (s : Session) (unwinding : Bool) (held : Held) (others : List Held) :
    (s.drop unwinding held others).workspace.layout = s.workspace.layout := by
  rw [drop, Workspace.dropScope_eq_leave]
  exact s.workspace.layout_leave held.scope

/-- Whatever is dropped, and in which order, what was made stays. -/
theorem Sound.tended_step (h : s.Sound) (ht : s.workspace.Tended s.entries) (hst : Step s t) :
    t.workspace.Tended t.entries ∧ s.workspace.layout.Extended t.workspace.layout := by
  cases hst with
  | operation op known => exact ht.perform known
  | @opened o t ho =>
    have known := ho.known
    obtain ⟨rfl, -⟩ := ho.eq_opened
    have hopened := ht.opened known
    refine ⟨?_, .refl _⟩
    simpa [opened, entries] using hopened
  | refused known he =>
    rw [(Workspace.enter_error he).2.2]
    exact ⟨ht, .refl _⟩
  | @dropped before after held unwinding hs =>
    have hl := s.layout_drop unwinding held (before ++ after)
    have hextended : s.workspace.layout.Extended
        (s.drop unwinding held (before ++ after)).workspace.layout := by
      rw [hl]
      exact .refl _
    refine ⟨⟨(h.dropped hs unwinding).ambient, fun e he => ?_, ?_⟩, hextended⟩
    · have hmem : e ∈ s.entries := by
        rw [entries_split hs]
        simp only [entries, drop, List.flatMap_append, List.mem_append] at he ⊢
        rcases he with he | he
        · exact .inl (.inl he)
        · exact .inr he
      exact (ht.known e hmem).of_extended hextended
    · rw [hl]
      exact ht.wellFormed

theorem tended_of_reachable (hs : Reachable s) : s.workspace.Tended s.entries := by
  induction hs with
  | refl => exact tended_start
  | tail hr hst ih => exact ((Sound.of_reachable hr).tended_step ih hst).1

/-- Opening and dropping scopes leaves the layout alone, so what can be chained over acts
holds over all of a session. -/
theorem chained {R : Layout → Layout → Prop} (refl : ∀ l, R l l)
    (trans : ∀ {l l' l''}, R l l' → R l' l'' → R l l'')
    (act : ∀ {w w' entries}, w.Tended entries → Workspace.Act w w' → R w.layout w'.layout)
    (hs : Reachable s) (h : Relation.ReflTransGen Step s t) :
    R s.workspace.layout t.workspace.layout := by
  induction h with
  | refl => exact refl _
  | @tail t u ht hst ih =>
    refine trans ih ?_
    have htended := tended_of_reachable (hs.trans ht)
    cases hst with
    | operation op known =>
      exact htended.course_chained refl trans act (fun _ _ hk => hk)
        (Workspace.perform_course_known known)
    | opened ho =>
      obtain ⟨rfl, -⟩ := ho.eq_opened
      exact refl _
    | refused _ he =>
      obtain rfl := (Workspace.enter_error he).2.2
      exact refl _
    | dropped unwinding _ =>
      rw [layout_drop]
      exact refl _

theorem extended_of_later (hs : Reachable s) (h : Relation.ReflTransGen Step s t) :
    s.workspace.layout.Extended t.workspace.layout :=
  chained .refl .trans (fun ht ha => (ht.act ha).2) hs h

theorem Sound.settled_step (h : s.Sound) (ht : s.workspace.Settled s.entries)
    (hst : OrderlyStep s t) :
    t.workspace.Settled t.entries ∧
      ∀ c, (s.workspace.layout.contents c).nodes <+: (t.workspace.layout.contents c).nodes := by
  cases hst with
  | operation op known inside => exact ht.perform known inside
  | @opened o t ho inside =>
    have known := ho.known
    obtain ⟨rfl, free⟩ := ho.eq_opened
    have hopened := ht.opened ⟨known, inside, free⟩
    refine ⟨?_, fun c => List.prefix_refl _⟩
    simpa [opened, entries] using hopened
  | refused known he =>
    rw [(Workspace.enter_error he).2.2]
    exact ⟨ht, fun c => List.prefix_refl _⟩
  | @closed outer held unwinding hs =>
    have hthemes := h.themes held (hs ▸ List.mem_append_right outer List.mem_cons_self)
    have hentries : s.entries = outer.flatMap Held.entries ++ held.entries := by
      simp [entries, hs]
    rw [hentries] at ht
    refine ⟨?_, fun c => ?_⟩
    · rw [drop, Workspace.dropScope_eq_leave]
      exact ht.leave hthemes
    · exact Layout.prefix_of_eq (by rw [s.layout_drop unwinding held outer])

theorem settled_of_orderly (hs : Orderly s) : s.workspace.Settled s.entries := by
  induction hs with
  | refl => exact settled_start
  | tail hr hst ih =>
    exact ((Sound.of_reachable (Orderly.reachable hr)).settled_step ih hst).1

/-- A graph is open, and it has a subgraph. -/
def divided : Session :=
  ((start.perform (.graph (.plain "g"))).opened (.graph ⟨0⟩)).perform (.subgraph (.named "s"))

/-- The subgraph is open, too, and has two nodes. -/
def populated : Session :=
  ((divided.opened (.subgraph ⟨0⟩)).perform (.node (.named "a"))).perform (.node (.named "b"))

/-- The subgraph is open, too, and has two nodes with an edge. -/
def furnished : Session :=
  (((divided.opened (.subgraph ⟨0⟩)).perform (.node (.named "a"))).perform
    (.node (.named "b"))).perform (.edge (.plain ⟨0⟩ ⟨1⟩))

/-- The graph is closed, and the subgraph was opened without it. -/
def detached : Session :=
  (divided.drop false ⟨⟨1, .graph ⟨0⟩⟩, none⟩ []).opened (.subgraph ⟨0⟩)

/-- The subgraph got a node and was closed, and the graph is open again. -/
def reopened : Session :=
  ((detached.perform (.node (.named "a"))).drop false ⟨⟨2, .subgraph ⟨0⟩⟩, none⟩ []).opened
    (.graph ⟨0⟩)

theorem divided_orderly : Orderly divided := by
  have hmade : OrderlyStep start (start.perform (.graph (.plain "g"))) :=
    .operation _ trivial trivial
  have hk : (Opening.graph ⟨0⟩).Known (start.perform (.graph (.plain "g"))).workspace :=
    Nat.zero_lt_one
  have hopen := OrderlyStep.opened (opens_opened hk fun _ => rfl) trivial
  exact ((Relation.ReflTransGen.single hmade).tail hopen).tail (.operation _ trivial trivial)

theorem populated_orderly : Orderly populated := by
  have hk : (Opening.subgraph ⟨0⟩).Known divided.workspace := Nat.zero_lt_one
  have hin : (Opening.subgraph ⟨0⟩).Inside divided.workspace :=
    ⟨⟨0⟩, rfl, .single ⟨⟨0⟩, rfl, List.mem_singleton_self _⟩⟩
  have hopen := OrderlyStep.opened (opens_opened hk fun h => by cases h) hin
  exact ((divided_orderly.tail hopen).tail (.operation (.node (.named "a")) trivial trivial)).tail
    (.operation (.node (.named "b")) trivial trivial)

theorem edge_known_populated : (Operation.edge (.plain ⟨0⟩ ⟨1⟩)).Known populated.workspace :=
  ⟨Nat.zero_lt_two, Nat.one_lt_two⟩

theorem furnished_orderly : Orderly furnished :=
  populated_orderly.tail (.operation _ edge_known_populated trivial)

/-- It is not orderly, since the subgraph was opened while no graph was open. -/
theorem detached_reachable : Reachable detached := by
  have hs : (Opening.subgraph ⟨0⟩).Known
      (divided.drop false ⟨⟨1, .graph ⟨0⟩⟩, none⟩ []).workspace := Nat.zero_lt_one
  have hclosed : Step divided (divided.drop false ⟨⟨1, .graph ⟨0⟩⟩, none⟩ ([] ++ [])) :=
    .dropped false rfl
  have hopen := Step.opened (opens_opened hs fun h => by cases h)
  exact ((Orderly.reachable divided_orderly).tail hclosed).tail hopen

theorem reopened_reachable : Reachable reopened := by
  have hg : (Opening.graph ⟨0⟩).Known ((detached.perform (.node (.named "a"))).drop false
      ⟨⟨2, .subgraph ⟨0⟩⟩, none⟩ []).workspace := Nat.zero_lt_one
  have hclosed : Step (detached.perform (.node (.named "a"))) ((detached.perform
      (.node (.named "a"))).drop false ⟨⟨2, .subgraph ⟨0⟩⟩, none⟩ ([] ++ [])) := .dropped false rfl
  have hopen := Step.opened (opens_opened hg fun _ => rfl)
  have hnode := detached_reachable.tail (.operation (.node (.named "a")) trivial)
  exact (hnode.tail hclosed).tail hopen

end Session

end DotDiagram
