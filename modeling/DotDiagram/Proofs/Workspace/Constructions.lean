import DotDiagram.Proofs.Workspace.Drawing
import DotDiagram.Proofs.Workspace.Scopes

/-! Constructions and the stacks. Nodes, edges and containers are made without touching
the stacks; what opens a scope of its own closes it again, in order. -/

namespace DotDiagram

namespace Workspace

variable (w : Workspace)

@[simp]
theorem ambient_takeName (name : Option String) : (w.takeName name).2.ambient = w.ambient := by
  cases name <;> rfl

@[simp]
theorem ambient_claimName (name : String) : (w.claimName name).ambient = w.ambient := by
  unfold claimName
  split <;> rfl

@[simp]
theorem ambient_claimPair (key : String × String) : (w.claimPair key).ambient = w.ambient := by
  unfold claimPair
  split <;> rfl

@[simp]
theorem ambient_listNode (id : NodeId) (name : String) :
    (w.listNode id name).ambient = w.ambient := by
  unfold listNode
  split <;> rfl

@[simp]
theorem ambient_listEdge (id : EdgeId) : (w.listEdge id).ambient = w.ambient := by
  unfold listEdge
  split <;> rfl

@[simp]
theorem ambient_listSubgraph (id : SubgraphId) : (w.listSubgraph id).ambient = w.ambient := by
  unfold listSubgraph
  split <;> rfl

@[simp]
theorem ambient_buildNode (spec : NodeSpec) : (w.buildNode spec).2.ambient = w.ambient := by
  unfold buildNode
  cases spec.directAttrs with
  | error e => rfl
  | ok direct =>
    simp only
    split <;> simp

@[simp]
theorem ambient_buildEdge (spec : EdgeSpec) : (w.buildEdge spec).2.ambient = w.ambient := by
  simp only [buildEdge]
  split <;> simp

@[simp]
theorem ambient_buildSubgraph (spec : SubgraphSpec) :
    (w.buildSubgraph spec).2.ambient = w.ambient := by
  simp [buildSubgraph]

/-- What holds of a workspace and lasts whatever nodes and edges are made in it. -/
structure Lasting (P : Workspace → Prop) : Prop where
  node : ∀ {w : Workspace} (spec : NodeSpec), P w → P (w.buildNode spec).2
  edge : ∀ {w : Workspace} (spec : EdgeSpec), P w → P (w.buildEdge spec).2

namespace Lasting

variable {P : Workspace → Prop} {w w' : Workspace}

theorem drawing (h : Lasting P) (hw : P w) (hd : Drawing w w') : P w' := by
  induction hd with
  | refl => exact hw
  | tail _ hst ih =>
    cases hst with
    | node spec => exact h.node spec ih
    | edge spec _ _ => exact h.edge spec ih

theorem fanEdges (h : Lasting P) (hw : P w) (source : NodeId) (targets : List NodeId) :
    P (Chain.fanEdges source targets w).2 := by
  induction targets generalizing w with
  | nil => exact hw
  | cons target rest ih => exact ih (h.edge _ hw)

end Lasting

end Workspace

theorem Chain.ambient_set (key : String) (value : AttrValue) (chain : Chain) (w : Workspace) :
    (chain.set key value w).ambient = w.ambient := by
  unfold Chain.set
  induction chain.edges generalizing w with
  | nil => rfl
  | cons edge rest ih => exact ih (w.setEdge edge key value)

theorem Chain.ambient_update (attrs : AttrSet) (chain : Chain) (w : Workspace) :
    (chain.update attrs w).ambient = w.ambient := by
  unfold Chain.update
  induction chain.edges generalizing w with
  | nil => rfl
  | cons edge rest ih => exact ih (w.updateEdge edge attrs)

theorem Opening.held_theme (w : Workspace) (o : Opening) :
    ∀ t ∈ (o.held w).theme, t.opening.slot = .theme := by
  intro t h
  cases ht : o.themeOf w with
  | none => simp [Opening.held, ht] at h
  | some u =>
    simp only [Opening.held, ht, Option.mem_def, Option.some.injEq] at h
    rw [← h]
    rfl

/-- The workspace with the wrapper made and open. -/
def Template.wrapped (t : Template) (name : String) (w : Workspace) : Workspace :=
  let made := (w.buildSubgraph (t.wrapperSpec name)).2
  { made with ambient := made.opened (.subgraph ⟨w.subgraphs.size⟩) }

namespace Template

variable {t : Template} {name : String} {w : Workspace}

theorem build_of_clash (h : firstClash w [] t.names = some name) :
    t.build w = (.error (.duplicateNode name), w) := by
  simp only [build, h]

theorem build_of_bare (h : firstClash w [] t.names = none) (hw : t.wrapper = none) :
    t.build w = ((buildNodes t.factories .empty w).1.map fun nodes => ⟨nodes, none⟩,
      (buildNodes t.factories .empty w).2) := by
  simp only [build, h, hw]

theorem build_of_wrapper (h : firstClash w [] t.names = none) (hw : t.wrapper = some name) :
    t.build w =
      ((buildNodes t.factories .empty (t.wrapped name w)).1.map
          fun nodes => ⟨nodes, some ⟨w.subgraphs.size⟩⟩,
        ((buildNodes t.factories .empty (t.wrapped name w)).2.leave
          ((Opening.subgraph ⟨w.subgraphs.size⟩).held
            (w.buildSubgraph (t.wrapperSpec name)).2).scope).2) := by
  simp only [build, h, hw, Workspace.enterSubgraph_eq]
  rfl

end Template

section

variable {w : Workspace} {entries : List Entered}

theorem Workspace.lasting_holds (entries : List Entered) :
    Lasting fun w => w.ambient.Holds entries where
  node spec h := (ambient_buildNode _ spec).symm ▸ h
  edge spec h := (ambient_buildEdge _ spec).symm ▸ h

theorem Template.build_holds (h : w.ambient.Holds entries) (t : Template) :
    (t.build w).2.ambient.Holds entries := by
  cases hclash : Template.firstClash w [] t.names with
  | some name =>
    rw [build_of_clash hclash]
    exact h
  | none =>
    cases hwrapper : t.wrapper with
    | none =>
      have hd := w.drawing_buildNodes t.factories .empty
      rw [build_of_bare hclash hwrapper]
      exact (Workspace.lasting_holds entries).drawing h hd
    | some name =>
      let u := (w.buildSubgraph (t.wrapperSpec name)).2
      let o : Opening := .subgraph (w.buildSubgraph (t.wrapperSpec name)).1
      have hu : u.ambient.Holds entries := (w.ambient_buildSubgraph _).symm ▸ h
      have hin := Workspace.opened_holds hu o
      have hd := Workspace.drawing_buildNodes (t.wrapped name w) t.factories .empty
      rw [build_of_wrapper hclash hwrapper]
      apply (Workspace.leave_last _ (o.held_theme u)).2
      exact (Workspace.lasting_holds _).drawing hin hd

theorem Workspace.buildClassGraph_holds (h : w.ambient.Holds entries) (diagram : ClassDiagram)
    (options : ClassGraphOptions) :
    (w.buildClassGraph diagram options).2.ambient.Holds entries := by
  let u := (w.buildGraph options.spec).2
  let o : Opening := .graph (w.buildGraph options.spec).1
  have hu : u.ambient.Holds entries := h
  unfold Workspace.buildClassGraph
  cases hg : u.ambient.graph? with
  | some outer =>
    have he := Workspace.enterGraph_eq_of_some (w.buildGraph options.spec).1 hg
    simp only [u] at he
    simp only [he]
    exact hu
  | none =>
    have he := Workspace.enterGraph_eq_of_none (w.buildGraph options.spec).1 hg
    have hin := Workspace.opened_holds hu o
    simp only [u] at he
    simp only [he]
    apply (Workspace.leave_last _ (o.held_theme u)).2
    exact (Workspace.lasting_holds _).drawing hin (Workspace.drawing_buildClassDiagram _ diagram)

/-- Whatever is done, just the scopes open before are open afterwards. -/
theorem Workspace.perform_holds (h : w.ambient.Holds entries) (op : Operation) :
    (w.perform op).ambient.Holds entries := by
  have hl := Workspace.lasting_holds entries
  cases op with
  | graph spec => exact h
  | subgraph spec => exact (w.ambient_buildSubgraph spec).symm ▸ h
  | node spec => exact hl.node spec h
  | edge spec => exact hl.edge spec h
  | relate source target kind label => exact hl.edge _ h
  | connect target chain => exact hl.edge _ h
  | connectAll targets chain => exact hl.fanEdges h chain.tail targets
  | setChain key value chain => exact (chain.ambient_set key value w).symm ▸ h
  | updateChain attrs chain => exact (chain.ambient_update attrs w).symm ▸ h
  | setNode id key value => exact h
  | updateNode id attrs => exact h
  | setEdge id key value => exact h
  | updateEdge id attrs => exact h
  | setSubgraph id key value => exact h
  | setGraph id key value => exact h
  | template t => exact t.build_holds h
  | classDiagram diagram => exact hl.drawing h (w.drawing_buildClassDiagram diagram)
  | classGraph diagram options => exact Workspace.buildClassGraph_holds h diagram options
  | mindMap outline => exact hl.drawing h (w.drawing_buildMindMap outline)

end

end DotDiagram
