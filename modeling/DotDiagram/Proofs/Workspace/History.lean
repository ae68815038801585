import DotDiagram.Proofs.Workspace.Appearance
import DotDiagram.Proofs.Workspace.Resolution

/-! Histories. What a node or an edge looks like at any time follows from the moment when it
was built, and from what was said to it since, and from nothing else. -/

namespace DotDiagram

/-- What has attributes of its own and is drawn. -/
inductive Item where
  | node (id : NodeId)
  | edge (id : EdgeId)
  deriving DecidableEq

def Workspace.attrs? (w : Workspace) : Item → Option AttrSet
  | .node id => (w.node? id).map Node.attrs
  | .edge id => (w.edge? id).map Edge.attrs

/-- What is said to an item after it was built. A style is applied by its attributes. -/
inductive Restyling where
  | set (key : String) (value : AttrValue)
  | update (attrs : AttrSet)

def Restyling.over (attrs : AttrSet) : Restyling → AttrSet
  | set key value => attrs.insert key value
  | update more => attrs.merge more

namespace Operation

/-- What an operation says to an item. A chain that holds an edge twice says it twice. -/
def restylings (x : Item) : Operation → List Restyling
  | .setNode id key value => if x = .node id then [.set key value] else []
  | .updateNode id attrs => if x = .node id then [.update attrs] else []
  | .setEdge id key value => if x = .edge id then [.set key value] else []
  | .updateEdge id attrs => if x = .edge id then [.update attrs] else []
  | .setChain key value chain =>
    chain.edges.flatMap fun id => if x = .edge id then [.set key value] else []
  | .updateChain attrs chain =>
    chain.edges.flatMap fun id => if x = .edge id then [.update attrs] else []
  | .graph _ | .subgraph _ | .node _ | .edge _ | .relate _ _ _ _ | .connect _ _
  | .connectAll _ _ | .setSubgraph _ _ _ | .setGraph _ _ _ | .template _ | .classDiagram _
  | .classGraph _ _ | .mindMap _ => []

/-- The nodes and the edges that an operation asks for. -/
def plan : Operation → Workspace.Plan
  | .node spec => ⟨(· = spec), fun _ => False⟩
  | .edge spec => ⟨fun _ => False, (· = spec)⟩
  | .relate source target kind label =>
    ⟨fun _ => False, (· = ⟨source, target, [kind.style], .ofList (optionalAttr "label" label)⟩)⟩
  | .connect target chain => ⟨fun _ => False, (· = .plain chain.tail target)⟩
  | .connectAll targets chain =>
    ⟨fun _ => False, fun spec => ∃ target ∈ targets, spec = .plain chain.tail target⟩
  | .template t => ⟨fun spec => ∃ f ∈ t.factories, spec = f.specify (.named f.name),
    fun _ => False⟩
  | .classDiagram diagram | .classGraph diagram _ =>
    { node := fun spec => (∃ c ∈ diagram.classes, spec = (ClassNode.ofDecl c).spec) ∨
        ∃ r ∈ diagram.relations, spec = (ClassNode.plain r.source).spec ∨
          spec = (ClassNode.plain r.target).spec
      edge := fun spec => ∃ r ∈ diagram.relations, ∃ source target,
        spec = ⟨source, target, [r.kind.style], .ofList (optionalAttr "label" r.label)⟩ }
  | .mindMap outline =>
    { node := fun spec => ∃ depth entry, outline.Has 0 depth entry ∧
        spec = (entry.level depth).spec entry.label
      edge := fun spec => ∃ parent child, spec = ⟨parent, child, [branchEdge], .empty⟩ }
  | .graph _ | .subgraph _ | .setChain _ _ _ | .updateChain _ _ | .setNode _ _ _
  | .updateNode _ _ | .setEdge _ _ _ | .updateEdge _ _ | .setSubgraph _ _ _ | .setGraph _ _ _ =>
    ⟨fun _ => False, fun _ => False⟩

/-- What an operation opens for what it draws, and the workspace that has it made. -/
def scope? (w : Workspace) : Operation → Option (Workspace × Opening)
  | .template t => t.wrapper.map fun name =>
    ((w.buildSubgraph (t.wrapperSpec name)).2, .subgraph ⟨w.subgraphs.size⟩)
  | .classGraph _ options =>
    match w.ambient.graph? with
    | some _ => none
    | none => some ((w.buildGraph options.spec).2, .graph ⟨w.graphs.size⟩)
  | _ => none

/-- The workspace when an operation begins to draw. -/
def stage (w : Workspace) (op : Operation) : Workspace :=
  match op.scope? w with
  | none => w
  | some (v, o) => { v with ambient := v.opened o }

/-- What an operation itself has entered while it draws. -/
def entered (w : Workspace) (op : Operation) : List Entered :=
  match op.scope? w with
  | none => []
  | some (v, o) => (o.held v).entries

end Operation

namespace Workspace

variable {w w' : Workspace} {x : Item} {attrs : AttrSet} {op : Operation}

theorem KeepsLooks.attrs? (h : KeepsLooks w w') (hx : w.attrs? x = some attrs) :
    w'.attrs? x = some attrs := by
  cases x with
  | node id =>
    obtain ⟨node, hn, -⟩ := Option.map_eq_some_iff.mp hx
    have hhas : w.HasNode id := hasNode_iff.mpr (hn ▸ rfl)
    rwa [Workspace.attrs?, h.nodes id hhas]
  | edge id =>
    obtain ⟨edge, he, -⟩ := Option.map_eq_some_iff.mp hx
    have hhas : w.HasEdge id := hasEdge_iff.mpr (he ▸ rfl)
    rwa [Workspace.attrs?, h.edges id hhas]

theorem attrs?_modifyNode (id : NodeId) {f : Node → Node} {r : Restyling}
    (hf : ∀ node, (f node).attrs = r.over node.attrs) (hx : w.attrs? x = some attrs) :
    (w.modifyNode id f).attrs? x =
      some ((if x = .node id then [r] else []).foldl Restyling.over attrs) := by
  by_cases h : x = .node id
  · subst h
    obtain ⟨node, hn, rfl⟩ := Option.map_eq_some_iff.mp hx
    have hself : (w.modifyNode id f).node? id = (w.node? id).map f := by
      simp [node?, modifyNode, Array.getElem?_modify]
    rw [if_pos rfl, attrs?, hself, hn, Option.map_some, Option.map_some, hf]
    rfl
  · rw [if_neg h, List.foldl_nil, ← hx]
    cases x with
    | node n => rw [attrs?, node?_modifyNode_of_ne f fun hn => h (congrArg Item.node hn), attrs?]
    | edge e => rfl

theorem attrs?_modifyEdge (id : EdgeId) {f : Edge → Edge} {r : Restyling}
    (hf : ∀ edge, (f edge).attrs = r.over edge.attrs) (hx : w.attrs? x = some attrs) :
    (w.modifyEdge id f).attrs? x =
      some ((if x = .edge id then [r] else []).foldl Restyling.over attrs) := by
  by_cases h : x = .edge id
  · subst h
    obtain ⟨edge, he, rfl⟩ := Option.map_eq_some_iff.mp hx
    have hself : (w.modifyEdge id f).edge? id = (w.edge? id).map f := by
      simp [edge?, modifyEdge, Array.getElem?_modify]
    rw [if_pos rfl, attrs?, hself, he, Option.map_some, Option.map_some, hf]
    rfl
  · rw [if_neg h, List.foldl_nil, ← hx]
    cases x with
    | node n => rfl
    | edge e => rw [attrs?, edge?_modifyEdge_of_ne f fun he => h (congrArg Item.edge he), attrs?]

/-- Edges are restyled one after another. -/
theorem attrs?_foldl {restyle : Workspace → EdgeId → Workspace} {r : Restyling}
    (hr : ∀ w id attrs, w.attrs? x = some attrs → (restyle w id).attrs? x =
      some ((if x = .edge id then [r] else []).foldl Restyling.over attrs))
    {edges : List EdgeId} (hx : w.attrs? x = some attrs) :
    (edges.foldl restyle w).attrs? x = some
      ((edges.flatMap fun id => if x = .edge id then [r] else []).foldl Restyling.over attrs) := by
  induction edges generalizing w attrs with
  | nil => exact hx
  | cons id edges ih =>
    rw [List.foldl_cons, List.flatMap_cons, List.foldl_append]
    exact ih (hr w id attrs hx)

/-- Only what is said to an item changes its attributes. -/
theorem attrs?_perform (known : op.Known w) (hx : w.attrs? x = some attrs) :
    (w.perform op).attrs? x = some ((op.restylings x).foldl Restyling.over attrs) := by
  cases op with
  | setNode id key value => exact attrs?_modifyNode (r := .set key value) id (fun _ => rfl) hx
  | updateNode id more => exact attrs?_modifyNode (r := .update more) id (fun _ => rfl) hx
  | setEdge id key value => exact attrs?_modifyEdge (r := .set key value) id (fun _ => rfl) hx
  | updateEdge id more => exact attrs?_modifyEdge (r := .update more) id (fun _ => rfl) hx
  | setChain key value chain =>
    exact attrs?_foldl (r := .set key value)
      (fun _ id _ hx => attrs?_modifyEdge id (fun _ => rfl) hx) hx
  | updateChain more chain =>
    exact attrs?_foldl (r := .update more)
      (fun _ id _ hx => attrs?_modifyEdge id (fun _ => rfl) hx) hx
  | setSubgraph id key value => cases x <;> exact hx
  | setGraph id key value => cases x <;> exact hx
  | _ => exact (KeepsLooks.respected.perform known trivial).attrs? hx

/-- The other workspace has the same nodes and edges. -/
structure SameItems (w w' : Workspace) : Prop where
  nodes : w'.nodes = w.nodes
  edges : w'.edges = w.edges

theorem SameItems.attrs? (h : SameItems w w') (x : Item) : w'.attrs? x = w.attrs? x := by
  cases x with
  | node id => rw [Workspace.attrs?, node?, h.nodes, Workspace.attrs?, node?]
  | edge id => rw [Workspace.attrs?, edge?, h.edges, Workspace.attrs?, edge?]

theorem sameItems_buildSubgraph (w : Workspace) (spec : SubgraphSpec) :
    SameItems w (w.buildSubgraph spec).2 := by
  have hlist : ∀ (w : Workspace) id, SameItems w (w.listSubgraph id) := by
    intro w id
    unfold listSubgraph
    split <;> exact ⟨rfl, rfl⟩
  exact ⟨(hlist _ _).nodes, (hlist _ _).edges⟩

theorem sameItems_leave (w : Workspace) (scope : Scope) : SameItems w (w.leave scope).2 := by
  unfold leave
  cases scope.theme <;> exact ⟨rfl, rfl⟩

theorem sameItems_stage (w : Workspace) (op : Operation) : SameItems w (op.stage w) := by
  cases op with
  | template t =>
    cases ht : t.wrapper with
    | none => simp only [Operation.stage, Operation.scope?, ht, Option.map_none]; exact ⟨rfl, rfl⟩
    | some name =>
      have hmade := w.sameItems_buildSubgraph (t.wrapperSpec name)
      simp only [Operation.stage, Operation.scope?, ht, Option.map_some]
      exact ⟨hmade.nodes, hmade.edges⟩
  | classGraph diagram options =>
    cases hg : w.ambient.graph? <;> simp only [Operation.stage, Operation.scope?, hg] <;>
      exact ⟨rfl, rfl⟩
  | _ => exact ⟨rfl, rfl⟩

theorem stage_holds {entries : List Entered} (h : w.ambient.Holds entries) (op : Operation) :
    (op.stage w).ambient.Holds (entries ++ op.entered w) := by
  have hnone : op.scope? w = none → (op.stage w).ambient.Holds (entries ++ op.entered w) := by
    intro hs
    simpa only [Operation.stage, Operation.entered, hs, List.append_nil] using h
  cases op with
  | template t =>
    cases ht : t.wrapper with
    | none => exact hnone (by rw [Operation.scope?, ht, Option.map_none])
    | some name =>
      have hmade : (w.buildSubgraph (t.wrapperSpec name)).2.ambient.Holds entries :=
        (w.ambient_buildSubgraph _).symm ▸ h
      simp only [Operation.stage, Operation.entered, Operation.scope?, ht, Option.map_some]
      exact opened_holds hmade _
  | classGraph diagram options =>
    cases hg : w.ambient.graph? with
    | some outer => exact hnone (by simp only [Operation.scope?, hg])
    | none =>
      have hmade : (w.buildGraph options.spec).2.ambient.Holds entries := h
      simp only [Operation.stage, Operation.entered, Operation.scope?, hg]
      exact opened_holds hmade _
  | _ => exact hnone rfl

theorem attrs?_modifyNode_none (id : NodeId) (f : Node → Node) (hx : w.attrs? x = none) :
    (w.modifyNode id f).attrs? x = none := by
  cases x with
  | node n => simpa [attrs?, node?, modifyNode] using hx
  | edge e => exact hx

theorem attrs?_modifyEdge_none (id : EdgeId) (f : Edge → Edge) (hx : w.attrs? x = none) :
    (w.modifyEdge id f).attrs? x = none := by
  cases x with
  | node n => exact hx
  | edge e => simpa [attrs?, edge?, modifyEdge] using hx

/-- What an operation draws when it does draw, as against one that makes no items at all. -/
def DrawsPlan (w : Workspace) (op : Operation) : Prop :=
  ∃ v, Planned op.plan (op.stage w) v ∧ SameItems v (w.perform op)

theorem drawsPlan_template (t : Template) (h : Template.firstClash w [] t.names = none) :
    w.DrawsPlan (.template t) := by
  have hplan : ∀ f ∈ t.factories, (Operation.template t).plan.node (f.specify (.named f.name)) :=
    fun f hf => ⟨f, hf, rfl⟩
  cases ht : t.wrapper with
  | none =>
    refine ⟨(Template.buildNodes t.factories .empty w).2, ?_, ?_⟩
    · simp only [Operation.stage, Operation.scope?, ht, Option.map_none]
      exact w.planned_buildNodes hplan .empty
    · rw [perform, Template.build_of_bare h ht]
      exact ⟨rfl, rfl⟩
  | some name =>
    refine ⟨(Template.buildNodes t.factories .empty (t.wrapped name w)).2, ?_, ?_⟩
    · simp only [Operation.stage, Operation.scope?, ht, Option.map_some]
      exact (t.wrapped name w).planned_buildNodes hplan .empty
    · rw [perform, Template.build_of_wrapper h ht]
      exact sameItems_leave _ _

theorem drawsPlan_classGraph (diagram : ClassDiagram) (options : ClassGraphOptions)
    (h : w.ambient.graph? = none) : w.DrawsPlan (.classGraph diagram options) := by
  let u := (w.buildGraph options.spec).2
  have he := enterGraph_eq_of_none (w.buildGraph options.spec).1 (w := u) h
  refine ⟨({ u with ambient := u.opened (.graph ⟨w.graphs.size⟩) }.buildClassDiagram diagram).2,
    ?_, ?_⟩
  · simp only [Operation.stage, Operation.scope?, h]
    exact planned_buildClassDiagram _ (fun c hc => .inl ⟨c, hc, rfl⟩)
      (fun r hr => ⟨.inr ⟨r, hr, .inl rfl⟩, .inr ⟨r, hr, .inr rfl⟩⟩)
      fun r hr source target => ⟨r, hr, source, target, rfl⟩
  · simp only [u] at he
    simp only [perform, buildClassGraph, he]
    exact sameItems_leave _ _

/-- An operation draws what is planned, from its stage on, or makes no items at all. -/
theorem drawsPlan_or (known : op.Known w) :
    w.DrawsPlan op ∨ ∀ x, w.attrs? x = none → (w.perform op).attrs? x = none := by
  cases op with
  | node spec => exact .inl ⟨_, planned_node w rfl, ⟨rfl, rfl⟩⟩
  | edge spec => exact .inl ⟨_, .single (.edge rfl known.1 known.2), ⟨rfl, rfl⟩⟩
  | relate source target kind label =>
    exact .inl ⟨_, .single (.edge rfl known.1 known.2), ⟨rfl, rfl⟩⟩
  | connect target chain => exact .inl ⟨_, .single (.edge rfl known.2.1 known.1), ⟨rfl, rfl⟩⟩
  | connectAll targets chain =>
    exact .inl ⟨_, planned_fanEdges (fun target ht => ⟨target, ht, rfl⟩) known.2.1 known.1,
      ⟨rfl, rfl⟩⟩
  | classDiagram diagram =>
    refine .inl ⟨_, planned_buildClassDiagram w (fun c hc => .inl ⟨c, hc, rfl⟩)
      (fun r hr => ⟨.inr ⟨r, hr, .inl rfl⟩, .inr ⟨r, hr, .inr rfl⟩⟩)
      fun r hr source target => ⟨r, hr, source, target, rfl⟩, ⟨rfl, rfl⟩⟩
  | mindMap outline =>
    exact .inl ⟨_, planned_buildMindMap w (fun d e he => ⟨d, e, he, rfl⟩)
      fun source target => ⟨source, target, rfl⟩, ⟨rfl, rfl⟩⟩
  | template t =>
    cases hclash : Template.firstClash w [] t.names with
    | none => exact .inl (drawsPlan_template t hclash)
    | some name =>
      rw [perform, Template.build_of_clash hclash]
      exact .inr fun _ hx => hx
  | classGraph diagram options =>
    cases hg : w.ambient.graph? with
    | none => exact .inl (drawsPlan_classGraph diagram options hg)
    | some outer =>
      have he := enterGraph_eq_of_some (w.buildGraph options.spec).1
        (w := (w.buildGraph options.spec).2) hg
      refine .inr fun x hx => ?_
      simp only [perform, buildClassGraph, he]
      cases x <;> exact hx
  | subgraph spec => exact .inr fun x hx => ((w.sameItems_buildSubgraph spec).attrs? x).trans hx
  | graph spec => exact .inr fun x hx => by cases x <;> exact hx
  | setSubgraph id key value => exact .inr fun x hx => by cases x <;> exact hx
  | setGraph id key value => exact .inr fun x hx => by cases x <;> exact hx
  | setNode id key value => exact .inr fun x hx => attrs?_modifyNode_none id _ hx
  | updateNode id more => exact .inr fun x hx => attrs?_modifyNode_none id _ hx
  | setEdge id key value => exact .inr fun x hx => attrs?_modifyEdge_none id _ hx
  | updateEdge id more => exact .inr fun x hx => attrs?_modifyEdge_none id _ hx
  | setChain key value chain =>
    exact .inr fun x hx =>
      List.foldlRecOn (motive := fun w : Workspace => w.attrs? x = none) chain.edges _ hx
        fun _ hw id _ => attrs?_modifyEdge_none id _ hw
  | updateChain more chain =>
    exact .inr fun x hx =>
      List.foldlRecOn (motive := fun w : Workspace => w.attrs? x = none) chain.edges _ hx
        fun _ hw id _ => attrs?_modifyEdge_none id _ hw

/-- The item is built with these attributes while an operation draws up to `last`: there is a
call that builds it, to one of the specs that were asked for, and its layers are those in force
at that moment. -/
inductive Built (w : Workspace) (entries : List Entered) (op : Operation) (last : Workspace) :
    Item → AttrSet → Prop where
  | node {v : Workspace} {spec : NodeSpec} {id : NodeId} {direct : AttrSet}
      (before : Planned op.plan (op.stage w) v) (planned : op.plan.node spec)
      (built : (v.buildNode spec).1 = .ok id) (directAttrs : spec.directAttrs = .ok direct)
      (after : Planned op.plan (v.buildNode spec).2 last) :
      Built w entries op last (.node id)
        (liveNodeLayers (entries ++ op.entered w) spec.styles direct).resolve
  | edge {v : Workspace} {spec : EdgeSpec} (before : Planned op.plan (op.stage w) v)
      (planned : op.plan.edge spec) (after : Planned op.plan (v.buildEdge spec).2 last) :
      Built w entries op last (.edge (v.buildEdge spec).1)
        (liveEdgeLayers (entries ++ op.entered w) spec.styles spec.attrs).resolve

theorem Built.tail {entries : List Entered} {u v : Workspace} (h : w.Built entries op u x attrs)
    (hstep : PlannedDraw op.plan u v) : w.Built entries op v x attrs := by
  cases h with
  | node before planned built directAttrs after =>
    exact .node before planned built directAttrs (after.tail hstep)
  | edge before planned after => exact .edge before planned (after.tail hstep)

theorem attrs?_buildNode_new {spec : NodeSpec} (fresh : w.attrs? x = none)
    (present : (w.buildNode spec).2.attrs? x = some attrs) :
    ∃ id direct, x = .node id ∧ (w.buildNode spec).1 = .ok id ∧ spec.directAttrs = .ok direct ∧
      attrs = (w.ambient.nodeLayers spec.styles direct).resolve := by
  cases x with
  | edge e =>
    rw [attrs?, edge?, edges_buildNode] at present
    cases fresh.symm.trans present
  | node n =>
    cases hb : (w.buildNode spec).1 with
    | error e =>
      rw [attrs?, node?, nodes_buildNode_of_error hb] at present
      cases fresh.symm.trans present
    | ok id =>
      obtain ⟨rfl, direct, hd, hnodes⟩ := nodes_buildNode hb
      rw [attrs?, node?, hnodes, Array.getElem?_push] at present
      by_cases hn : n.index = w.nodes.size
      · rw [if_pos hn] at present
        exact ⟨_, direct, by rw [← hn], rfl, hd, (Option.some.inj present).symm⟩
      · rw [if_neg hn] at present
        cases fresh.symm.trans present

theorem attrs?_buildEdge_new {spec : EdgeSpec} (fresh : w.attrs? x = none)
    (present : (w.buildEdge spec).2.attrs? x = some attrs) :
    x = .edge (w.buildEdge spec).1 ∧
      attrs = (w.ambient.edgeLayers spec.styles spec.attrs).resolve := by
  cases x with
  | node n =>
    rw [attrs?, node?, nodes_buildEdge] at present
    cases fresh.symm.trans present
  | edge e =>
    rw [attrs?, edge?, edges_buildEdge, Array.getElem?_push] at present
    by_cases he : e.index = w.edges.size
    · rw [if_pos he] at present
      refine ⟨?_, (Option.some.inj present).symm⟩
      rw [show (w.buildEdge spec).1 = ⟨w.edges.size⟩ from rfl, ← he]
    · rw [if_neg he] at present
      cases fresh.symm.trans present

/-- What is new at the end of a drawing was built at some moment of it. -/
theorem built_of_planned {entries : List Entered} {last : Workspace}
    (h : (op.stage w).ambient.Holds (entries ++ op.entered w))
    (hlast : Planned op.plan (op.stage w) last) (fresh : (op.stage w).attrs? x = none)
    (present : last.attrs? x = some attrs) : w.Built entries op last x attrs := by
  induction hlast with
  | refl => cases fresh.symm.trans present
  | @tail u v hu hstep ih =>
    have hlive : u.ambient.Holds (entries ++ op.entered w) :=
      (lasting_holds _).drawing h (Planned.drawing hu)
    cases hold : u.attrs? x with
    | some old =>
      have hkept := (KeepsLooks.respected.drawing (.single hstep.draw)).attrs? hold
      cases hkept.symm.trans present
      exact (ih hold).tail hstep
    | none =>
      cases hstep with
      | node planned =>
        obtain ⟨id, direct, rfl, hok, hd, rfl⟩ := attrs?_buildNode_new hold present
        rw [hlive.nodeLayers_eq]
        exact .node hu planned hok hd .refl
      | edge planned _ _ =>
        obtain ⟨rfl, rfl⟩ := attrs?_buildEdge_new hold present
        rw [hlive.edgeLayers_eq]
        exact .edge hu planned .refl

theorem built_of_perform {entries : List Entered} (h : w.ambient.Holds entries)
    (known : op.Known w) (fresh : w.attrs? x = none)
    (present : (w.perform op).attrs? x = some attrs) :
    ∃ last, SameItems last (w.perform op) ∧ w.Built entries op last x attrs := by
  rcases drawsPlan_or known with ⟨last, hplanned, hsame⟩ | hnone
  · have hstage := (w.sameItems_stage op).attrs? x
    have hend := hsame.attrs? x
    exact ⟨last, hsame, built_of_planned (stage_holds h op) hplanned (hstage.trans fresh)
      (hend.symm.trans present)⟩
  · cases (hnone x fresh).symm.trans present

end Workspace

namespace Session

/-- Scopes are opened, refused and dropped; nothing else is done. -/
inductive Scoping (s : Session) : Session → Prop where
  | opened {opening : Opening} {t : Session} (h : s.Opens opening t) : Scoping s t
  | refused {opening : Opening} {e : Error} {w : Workspace} (known : opening.Known s.workspace)
      (h : s.workspace.enter opening = (.error e, w)) : Scoping s { s with workspace := w }
  | dropped {before after : List Held} {held : Held} (unwinding : Bool)
      (h : s.held = before ++ held :: after) : Scoping s (s.drop unwinding held (before ++ after))

/-- The operations on the way from one session to another, in their order. -/
inductive Run (s : Session) : List Operation → Session → Prop where
  | refl : Run s [] s
  | operation {ops : List Operation} {t : Session} (h : Run s ops t) (op : Operation)
      (known : op.Known t.workspace) : Run s (ops ++ [op]) (t.perform op)
  | scoping {ops : List Operation} {t u : Session} (h : Run s ops t) (hst : Scoping t u) :
      Run s ops u

variable {s t : Session} {ops : List Operation} {x : Item} {attrs : AttrSet}

theorem Scoping.step (h : Scoping s t) : Step s t := by
  cases h with
  | opened h => exact .opened h
  | refused known h => exact .refused known h
  | dropped unwinding h => exact .dropped unwinding h

theorem Scoping.sameItems (h : Scoping s t) : s.workspace.SameItems t.workspace := by
  cases h with
  | opened h =>
    obtain ⟨rfl, -⟩ := h.eq_opened
    exact ⟨rfl, rfl⟩
  | refused known h =>
    obtain rfl := (Workspace.enter_error h).2.2
    exact ⟨rfl, rfl⟩
  | dropped unwinding h =>
    rw [drop, Workspace.dropScope_eq_leave]
    exact s.workspace.sameItems_leave _

theorem Run.reachable (h : Run s ops t) (hs : Reachable s) : Reachable t := by
  induction h with
  | refl => exact hs
  | operation _ op known ih => exact ih.tail (.operation op known)
  | scoping _ hst ih => exact ih.tail hst.step

/-- Every reachable session is the end of some run. -/
theorem exists_run (h : Reachable s) : ∃ ops, Run start ops s := by
  induction h with
  | refl => exact ⟨[], .refl⟩
  | tail _ hst ih =>
    obtain ⟨ops, hrun⟩ := ih
    cases hst with
    | operation op known => exact ⟨_, hrun.operation op known⟩
    | opened h => exact ⟨ops, hrun.scoping (.opened h)⟩
    | refused known h => exact ⟨ops, hrun.scoping (.refused known h)⟩
    | dropped unwinding h => exact ⟨ops, hrun.scoping (.dropped unwinding h)⟩

/-- The item was built by one operation of the run, and its attributes are now those it got
then, with all that later operations said to it laid over them. -/
inductive Story (ops : List Operation) (t : Session) (x : Item) : AttrSet → Prop where
  | intro {before after : List Operation} {op : Operation} {s : Session} {last : Workspace}
      {attrs : AttrSet} (split : ops = before ++ op :: after) (earlier : Run start before s)
      (known : op.Known s.workspace) (later : Run (s.perform op) after t)
      (fresh : s.workspace.attrs? x = none) (drawn : last.SameItems (s.perform op).workspace)
      (built : s.workspace.Built s.entries op last x attrs) :
      Story ops t x ((after.flatMap (Operation.restylings x)).foldl Restyling.over attrs)

/-- Scopes, other items and failures have no part in it. -/
theorem attributes_fixed (h : Run start ops t) (hx : t.workspace.attrs? x = some attrs) :
    Story ops t x attrs := by
  induction h generalizing attrs with
  | refl => cases x <;> cases hx
  | @operation ops s hrun op known ih =>
    cases hold : s.workspace.attrs? x with
    | none =>
      have hsound := Sound.of_reachable (hrun.reachable .refl)
      obtain ⟨last, drawn, built⟩ := Workspace.built_of_perform hsound.ambient known hold hx
      exact .intro rfl hrun known .refl hold drawn built
    | some old =>
      cases (Workspace.attrs?_perform known hold).symm.trans hx
      cases ih hold with
      | @intro before after op' _ _ _ split earlier known' later fresh drawn built =>
        have hsplit : ops ++ [op] = before ++ op' :: (after ++ [op]) := by rw [split]; simp
        have hstory :=
          Story.intro hsplit earlier known' (later.operation op known) fresh drawn built
        rwa [List.flatMap_append, List.foldl_append, List.flatMap_singleton] at hstory
  | scoping hrun hst ih =>
    rw [hst.sameItems.attrs? x] at hx
    cases ih hx with
    | intro split earlier known later fresh drawn built =>
      exact .intro split earlier known (later.scoping hst) fresh drawn built

/-- A node and an edge are made while a style for each is in force. -/
def painted : Session :=
  (((start.opened (.nodeStyle (.ofList [("color", "red")]))).opened
    (.edgeStyle (.ofList [("color", "green")]))).perform (.node (.named "a"))).perform
      (.edge (.plain ⟨0⟩ ⟨0⟩))

/-- The outer scope is dropped before the inner one, and the node and the edge are restyled,
the edge by a chain that holds it twice. -/
def repainted : Session :=
  ((painted.drop false ⟨⟨1, .nodeStyle (.ofList [("color", "red")])⟩, none⟩
    (painted.held.drop 1)).perform (.setNode ⟨0⟩ "shape" "box")).perform
      (.setChain "style" "dashed" ⟨⟨0⟩, [⟨0⟩, ⟨0⟩]⟩)

def repainting : List Operation :=
  [.node (.named "a"), .edge (.plain ⟨0⟩ ⟨0⟩), .setNode ⟨0⟩ "shape" "box",
    .setChain "style" "dashed" ⟨⟨0⟩, [⟨0⟩, ⟨0⟩]⟩]

theorem repainted_run : Run start repainting repainted := by
  have hnode := Scoping.opened (s := start)
    (opens_opened (o := .nodeStyle (.ofList [("color", "red")])) trivial nofun)
  have hedge := Scoping.opened (s := start.opened (.nodeStyle (.ofList [("color", "red")])))
    (opens_opened (o := .edgeStyle (.ofList [("color", "green")])) trivial nofun)
  have hdropped : Scoping painted (painted.drop false
      ⟨⟨1, .nodeStyle (.ofList [("color", "red")])⟩, none⟩ ([] ++ painted.held.drop 1)) :=
    .dropped false rfl
  have hmade := (((Run.refl.scoping hnode).scoping hedge).operation (.node (.named "a"))
    trivial).operation (.edge (.plain ⟨0⟩ ⟨0⟩)) ⟨Nat.zero_lt_one, Nat.zero_lt_one⟩
  have hset := (hmade.scoping hdropped).operation (.setNode ⟨0⟩ "shape" "box") Nat.zero_lt_one
  refine hset.operation (.setChain "style" "dashed" ⟨⟨0⟩, [⟨0⟩, ⟨0⟩]⟩) ⟨Nat.zero_lt_one, ?_⟩
  rintro e he
  obtain rfl : e = ⟨0⟩ := by simpa using he
  exact Nat.zero_lt_one

theorem repainted_fixed :
    Run start repainting repainted ∧
      Story repainting repainted (.node ⟨0⟩) (.ofList [("color", "red"), ("shape", "box")]) ∧
      Story repainting repainted (.edge ⟨0⟩) (.ofList [("color", "green"), ("style", "dashed")]) :=
  ⟨repainted_run, attributes_fixed repainted_run rfl, attributes_fixed repainted_run rfl⟩

end Session

end DotDiagram
