import DotDiagram.Proofs.Workspace.Discipline

/-! What builders do to the stacks. A wrapped group opens its wrapper, a class graph opens
the graph it makes, and nothing else is ever opened by a builder. Whatever goes wrong
inside, the scope is closed in order, and the stacks are as they were. -/

namespace DotDiagram

/-- In the order in which they are dropped. -/
def Scope.guards (scope : Scope) : List Guard := scope.container :: scope.theme.toList

/-- The guards are released one after another, each on top of its stack. -/
inductive ReleasedInOrder : List Guard → Ambient → Ambient → Prop where
  | nil (a : Ambient) : ReleasedInOrder [] a a
  | cons {guard : Guard} {guards : List Guard} {a b : Ambient}
      (first : (a.release guard).1 = .inOrder)
      (rest : ReleasedInOrder guards (a.release guard).2 b) :
      ReleasedInOrder (guard :: guards) a b

/-- The scope that a builder opens for itself, with the workspace in which it is closed
again. It is closed there also if something could not be made. -/
def Workspace.ownScope? (w : Workspace) : Operation → Option (Scope × Workspace)
  | .template t =>
    match Template.firstClash w [] t.names, t.wrapper with
    | none, some name =>
      let (wrapper, w) := w.buildSubgraph (t.wrapperSpec name)
      let (scope, w) := w.enterSubgraph wrapper
      some (scope, (Template.buildNodes t.factories .empty w).2)
    | some _, _ | none, none => none
  | .classGraph diagram options =>
    let (graph, w) := w.buildGraph options.spec
    match w.enterGraph graph with
    | (.error _, _) => none
    | (.ok scope, w) => some (scope, (w.buildClassDiagram diagram).2)
  | _ => none

/-- An operation, successful or not, has no effect on the stacks. -/
structure Workspace.Restores (w : Workspace) (op : Operation) : Prop where
  /-- Just the count of ids goes on. -/
  ambient : (w.perform op).ambient = { w.ambient with lastId := (w.perform op).ambient.lastId }
  /-- What has no scope of its own opens none. -/
  unscoped : w.ownScope? op = none → (w.perform op).ambient = w.ambient
  /-- No other scope is opened besides. Its guards stand on top when they are released, and
  dropping it raises no panic. -/
  closed : ∀ scope last, w.ownScope? op = some (scope, last) →
    (w.perform op).ambient.lastId = w.ambient.lastId + scope.guards.length ∧
      ReleasedInOrder scope.guards last.ambient (w.perform op).ambient ∧
      ∀ unwinding : Bool, last.dropScope unwinding scope = (none, w.perform op)

section

variable {a b : Ambient} {entries : List Entered} {e : Entered}

theorem Ambient.Holds.release_last (h : a.Holds (entries ++ [e])) :
    (a.release e.guard).1 = .inOrder ∧ (a.release e.guard).2.Holds entries := by
  obtain ⟨hr, hh⟩ := h.release
  rw [List.append_nil] at hh
  exact ⟨hr, hh⟩

theorem Ambient.lastId_release (a : Ambient) (guard : Guard) :
    (a.release guard).2.lastId = a.lastId := by
  obtain ⟨slot, id⟩ := guard
  cases slot <;> rfl

theorem ReleasedInOrder.lastId_eq {guards : List Guard} (h : ReleasedInOrder guards a b) :
    b.lastId = a.lastId := by
  induction h with
  | nil => rfl
  | @cons guard guards a b first rest ih => exact ih.trans (a.lastId_release guard)

end

namespace Workspace

variable {w u last : Workspace} {entries : List Entered} {held : Held} {scope : Scope}
  {o : Opening}

theorem leave_releasedInOrder (h : w.ambient.Holds (entries ++ held.entries)) :
    ReleasedInOrder held.scope.guards w.ambient (w.leave held.scope).2.ambient := by
  obtain ⟨own, theme⟩ := held
  cases theme with
  | none =>
    have ho : w.ambient.Holds (entries ++ [own]) := h
    exact .cons ho.release_last.1 (.nil _)
  | some t =>
    have ho : w.ambient.Holds (entries ++ [t] ++ [own]) := by
      simpa [Held.entries] using h
    obtain ⟨hown, hleft⟩ := ho.release_last
    exact .cons hown (.cons hleft.release_last.1 (.nil _))

theorem lastId_opened (u : Workspace) (o : Opening) :
    (u.opened o).lastId = u.ambient.lastId + (o.held u).scope.guards.length := by
  cases ht : o.themeOf u <;> cases o <;> simp only [opened, Opening.held, ht] <;> rfl

/-- What is drawn inside leaves the scope on top. -/
theorem closes_opened (h : u.ambient.Holds entries) (hlast : last.ambient = u.opened o) :
    (last.leave (o.held u).scope).2.ambient.lastId =
        u.ambient.lastId + (o.held u).scope.guards.length ∧
      ReleasedInOrder (o.held u).scope.guards last.ambient
        (last.leave (o.held u).scope).2.ambient ∧
      ∀ unwinding : Bool, last.dropScope unwinding (o.held u).scope =
        (none, (last.leave (o.held u).scope).2) := by
  have hholds : last.ambient.Holds (entries ++ (o.held u).entries) := by
    rw [hlast]
    exact opened_holds h o
  have horder := leave_releasedInOrder hholds
  refine ⟨?_, horder, fun unwinding => ?_⟩
  · rw [horder.lastId_eq, hlast, u.lastId_opened]
  · rw [dropScope_eq_leave, (leave_last hholds (o.held_theme u)).1, ite_self]

theorem lasting_ambient (a : Ambient) : Lasting fun w => w.ambient = a where
  node spec h := (ambient_buildNode _ spec).trans h
  edge spec h := (ambient_buildEdge _ spec).trans h

theorem ownScope?_template (w : Workspace) (t : Template) :
    w.ownScope? (.template t) =
      match Template.firstClash w [] t.names, t.wrapper with
      | none, some name =>
        some (((Opening.subgraph ⟨w.subgraphs.size⟩).held
            (w.buildSubgraph (t.wrapperSpec name)).2).scope,
          (Template.buildNodes t.factories .empty (t.wrapped name w)).2)
      | some _, _ | none, none => none := by
  cases hclash : Template.firstClash w [] t.names with
  | some name => simp only [ownScope?, hclash]
  | none =>
    cases hwrapper : t.wrapper with
    | none => simp only [ownScope?, hclash, hwrapper]
    | some name =>
      simp only [ownScope?, hclash, hwrapper, enterSubgraph_eq]
      rfl

theorem restores_template (h : w.ambient.Holds entries) (t : Template) :
    w.Restores (.template t) := by
  have hstacks := h.eq_of_same (t.build_holds h)
  cases hclash : Template.firstClash w [] t.names with
  | some name =>
    have hown : w.ownScope? (.template t) = none := by
      rw [ownScope?_template, hclash]
    have hbuilt : w.perform (.template t) = w := by
      simp only [perform, Template.build_of_clash hclash]
    refine ⟨hstacks, fun _ => by rw [hbuilt], fun scope last hs => ?_⟩
    cases hown.symm.trans hs
  | none =>
    cases hwrapper : t.wrapper with
    | none =>
      have hown : w.ownScope? (.template t) = none := by
        rw [ownScope?_template, hclash, hwrapper]
      have hdrawn := w.drawing_buildNodes t.factories .empty
      refine ⟨hstacks, fun _ => ?_, fun scope last hs => ?_⟩
      · rw [perform, Template.build_of_bare hclash hwrapper]
        exact (lasting_ambient _).drawing rfl hdrawn
      · cases hown.symm.trans hs
    | some name =>
      let u := (w.buildSubgraph (t.wrapperSpec name)).2
      have hu : u.ambient = w.ambient := w.ambient_buildSubgraph _
      have hdrawn := drawing_buildNodes (t.wrapped name w) t.factories .empty
      have hlast := (lasting_ambient _).drawing rfl hdrawn
      have hclosed := closes_opened (u := u) (hu.symm ▸ h) hlast
      rw [hu] at hclosed
      have hown := w.ownScope?_template t
      simp only [hclash, hwrapper] at hown
      refine ⟨hstacks, fun hs => ?_, fun scope last hs => ?_⟩
      · cases hown.symm.trans hs
      · rw [hown, Option.some.injEq, Prod.mk.injEq] at hs
        obtain ⟨rfl, rfl⟩ := hs
        rw [perform, Template.build_of_wrapper hclash hwrapper]
        exact hclosed

theorem restores_classGraph (h : w.ambient.Holds entries) (diagram : ClassDiagram)
    (options : ClassGraphOptions) : w.Restores (.classGraph diagram options) := by
  let u := (w.buildGraph options.spec).2
  let o : Opening := .graph (w.buildGraph options.spec).1
  have hstacks := h.eq_of_same (buildClassGraph_holds h diagram options)
  cases hg : u.ambient.graph? with
  | some outer =>
    have he := enterGraph_eq_of_some (w.buildGraph options.spec).1 hg
    simp only [u] at he
    have hown : w.ownScope? (.classGraph diagram options) = none := by
      simp only [ownScope?, he]
    refine ⟨hstacks, fun _ => ?_, fun scope last hs => ?_⟩
    · simp only [perform, buildClassGraph, he]
      rfl
    · cases hown.symm.trans hs
  | none =>
    have he := enterGraph_eq_of_none (w.buildGraph options.spec).1 hg
    simp only [u] at he
    have hdrawn := drawing_buildClassDiagram { u with ambient := u.opened o } diagram
    have hlast := (lasting_ambient _).drawing rfl hdrawn
    have hclosed := closes_opened (u := u) h hlast
    refine ⟨hstacks, fun hs => ?_, fun scope last hs => ?_⟩
    · simp only [ownScope?, he] at hs
      cases hs
    · simp only [ownScope?, he, Option.some.injEq, Prod.mk.injEq] at hs
      obtain ⟨rfl, rfl⟩ := hs
      simp only [perform, buildClassGraph, he]
      exact hclosed

/-- What opens no scope of its own leaves even the count of ids alone. -/
theorem Restores.of_ambient {op : Operation} (hown : w.ownScope? op = none)
    (h : (w.perform op).ambient = w.ambient) : w.Restores op := by
  refine ⟨by rw [h], fun _ => h, fun scope last hs => ?_⟩
  cases hown.symm.trans hs

theorem restores (h : w.ambient.Holds entries) (op : Operation) : w.Restores op := by
  have hl := lasting_ambient w.ambient
  cases op with
  | template t => exact restores_template h t
  | classGraph diagram options => exact restores_classGraph h diagram options
  | subgraph spec => exact .of_ambient rfl (w.ambient_buildSubgraph spec)
  | node spec => exact .of_ambient rfl (w.ambient_buildNode spec)
  | edge spec => exact .of_ambient rfl (w.ambient_buildEdge spec)
  | relate source target kind label => exact .of_ambient rfl (w.ambient_buildEdge _)
  | connect target chain => exact .of_ambient rfl (w.ambient_buildEdge _)
  | connectAll targets chain => exact .of_ambient rfl (hl.fanEdges rfl chain.tail targets)
  | setChain key value chain => exact .of_ambient rfl (chain.ambient_set key value w)
  | updateChain attrs chain => exact .of_ambient rfl (chain.ambient_update attrs w)
  | classDiagram diagram =>
    exact .of_ambient rfl (hl.drawing rfl (w.drawing_buildClassDiagram diagram))
  | mindMap outline => exact .of_ambient rfl (hl.drawing rfl (w.drawing_buildMindMap outline))
  | graph _ | setNode _ _ _ | updateNode _ _ | setEdge _ _ _ | updateEdge _ _
  | setSubgraph _ _ _ | setGraph _ _ _ => exact .of_ambient rfl rfl

end Workspace

namespace Session

variable {s : Session}

/-- Groups, class diagrams, class graphs and mind maps, among all that can be built. -/
theorem builders_restore (hs : Reachable s) (op : Operation) : s.workspace.Restores op :=
  Workspace.restores (Sound.of_reachable hs).ambient op

/-- The second node of the wrapped group gets two texts for its label. -/
def frayed : Template :=
  ((Template.empty.plain "a").node "b" fun spec =>
    { spec with html := some "x", markdown := some "y" }).inSubgraph (some "svc")

/-- The class is declared twice. -/
def repeated : ClassDiagram :=
  ⟨[⟨.concrete, "A", none, [], []⟩, ⟨.interface, "A", none, [], []⟩], []⟩

/-- The graph of the diagram comes with a theme. -/
def themed : ClassGraphOptions := ⟨"classes", some "dark", none⟩

/-- Both builders fail midway in a scope of their own, the second with a theme in it. -/
theorem midway_restored :
    Reachable layered ∧
      (frayed.build layered.workspace).1 = .error .conflictingLabels ∧
      (layered.workspace.ownScope? (.template frayed)).map (·.1.guards) =
        some [⟨.subgraph, 4⟩] ∧
      layered.workspace.Restores (.template frayed) ∧
      (start.workspace.buildClassGraph repeated themed).1 = .error (.duplicateNode "A") ∧
      (start.workspace.ownScope? (.classGraph repeated themed)).map (·.1.guards) =
        some [⟨.graph, 2⟩, ⟨.theme, 1⟩] ∧
      start.workspace.Restores (.classGraph repeated themed) :=
  ⟨layered_reachable, rfl, rfl, builders_restore layered_reachable (.template frayed), rfl, rfl,
    builders_restore .refl (.classGraph repeated themed)⟩

end Session

end DotDiagram
