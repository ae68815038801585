import DotDiagram.Proofs.Workspace.Agreement
import DotDiagram.Proofs.Workspace.Admission
import DotDiagram.Proofs.Workspace.History
import DotDiagram.Proofs.Workspace.Respect

/-! Names that are generated. Nodes without a name are numbered through, whatever else is
named in between, so generated names never meet each other. They are names like all others,
though, and someone may have chosen one of them before its turn. -/

namespace DotDiagram

def automaticName (n : Nat) : String := "node_" ++ toString n

theorem automaticName_injective {m n : Nat} (h : automaticName m = automaticName n) : m = n := by
  have htext : toString m = toString n := (String.append_right_inj "node_").mp h
  rw [Nat.toString_eq_ofList_toDigits, Nat.toString_eq_ofList_toDigits] at htext
  calc
    m = Nat.ofDigitChars 10 (Nat.toDigits 10 m) 0 := Nat.ofDigitChars_ten_toDigits.symm
    _ = Nat.ofDigitChars 10 (Nat.toDigits 10 n) 0 := by rw [String.ofList_injective htext]
    _ = n := Nat.ofDigitChars_ten_toDigits

/-- A node that is refused for its labels needs no name. -/
def NodeSpec.generated (w : Workspace) (spec : NodeSpec) : List String :=
  match spec.directAttrs, spec.name with
  | .ok _, none => [(w.takeName none).1]
  | .ok _, some _ | .error _, _ => []

/-- Factories may take the name away again from the node of a group. -/
def Template.generated : List Factory → Workspace → List String
  | [], _ => []
  | f :: rest, w =>
    (f.specify (.named f.name)).generated w ++
      match w.buildNode (f.specify (.named f.name)) with
      | (.error _, _) => []
      | (.ok _, w) => generated rest w

namespace Operation

/-- The names that an operation generates, in their order. -/
def generated (w : Workspace) : Operation → List String
  | .node spec => spec.generated w
  | .template t =>
    match Template.firstClash w [] t.names, t.wrapper with
    | some _, _ => []
    | none, none => Template.generated t.factories w
    | none, some name => Template.generated t.factories (t.wrapped name w)
  | _ => []

/-- An operation asks for a node of the name. -/
def Chooses (name : String) (op : Operation) : Prop :=
  ∃ spec, op.plan.node spec ∧ spec.name = some name

end Operation

namespace Workspace

/-- The names of all nodes, and the names that graphs claim. -/
def names (w : Workspace) : List String :=
  w.nodes.toList.map Node.name ++ w.graphs.toList.flatMap Graph.claimedNodes

structure KeepsNames (w w' : Workspace) : Prop where
  number : w'.nodeNumber = w.nodeNumber
  names : w'.names = w.names

/-- All new names were chosen or generated, and those are the next in number. -/
structure NamesFrom (chosen : String → Prop) (generated : List String) (w w' : Workspace) :
    Prop where
  consecutive : generated = (List.range' w.nodeNumber generated.length).map automaticName
  number : w'.nodeNumber = w.nodeNumber + generated.length
  names : ∀ name ∈ w'.names, name ∈ w.names ∨ chosen name ∨ name ∈ generated

variable {w w' w'' : Workspace} {chosen : String → Prop} {generated generated' : List String}
  {spec : NodeSpec}

namespace NamesFrom

theorem of_keeps (h : KeepsNames w w') : NamesFrom chosen [] w w' :=
  ⟨rfl, h.number, fun _ hname => .inl (h.names ▸ hname)⟩

theorem refl (w : Workspace) : NamesFrom chosen [] w w := of_keeps ⟨rfl, rfl⟩

theorem trans (h : NamesFrom chosen generated w w') (h' : NamesFrom chosen generated' w' w'') :
    NamesFrom chosen (generated ++ generated') w w'' where
  consecutive := by
    rw [List.length_append, ← List.range'_append_1, List.map_append, ← h.consecutive, ← h.number,
      ← h'.consecutive]
  number := by rw [h'.number, h.number, List.length_append, Nat.add_assoc]
  names name hname := by
    rcases h'.names name hname with hold | hchosen | hnew
    · rcases h.names name hold with hold | hchosen | hnew
      · exact .inl hold
      · exact .inr (.inl hchosen)
      · exact .inr (.inr (List.mem_append_left _ hnew))
    · exact .inr (.inl hchosen)
    · exact .inr (.inr (List.mem_append_right _ hnew))

theorem mono {chosen' : String → Prop} (h : NamesFrom chosen generated w w')
    (hc : ∀ name, chosen name → chosen' name) : NamesFrom chosen' generated w w' :=
  ⟨h.consecutive, h.number, fun name hname => (h.names name hname).imp_right (.imp_left (hc name))⟩

theorem keeping (h : NamesFrom chosen generated w w') (hk : KeepsNames w' w'') :
    NamesFrom chosen generated w w'' := by
  have hboth := h.trans (of_keeps hk)
  rwa [List.append_nil] at hboth

end NamesFrom

/-! ### What has no part in names -/

namespace KeepsNames

theorem of_arrays (hnodes : w'.nodes = w.nodes) (hgraphs : w'.graphs = w.graphs)
    (hnumber : w'.nodeNumber = w.nodeNumber) : KeepsNames w w' :=
  ⟨hnumber, by simp only [Workspace.names, hnodes, hgraphs]⟩

theorem trans (h : KeepsNames w w') (h' : KeepsNames w' w'') : KeepsNames w w'' :=
  ⟨h'.number.trans h.number, h'.names.trans h.names⟩

theorem modifyGraph (w : Workspace) (id : GraphId) {f : Graph → Graph}
    (hf : ∀ g, (f g).claimedNodes = g.claimedNodes) : KeepsNames w (w.modifyGraph id f) := by
  refine ⟨rfl, ?_⟩
  simp only [Workspace.names, Workspace.modifyGraph, List.flatMap_def,
    map_toList_modify _ _ f _ hf]

theorem modifyNode (w : Workspace) (id : NodeId) {f : Node → Node}
    (hf : ∀ node, (f node).name = node.name) : KeepsNames w (w.modifyNode id f) := by
  refine ⟨rfl, ?_⟩
  simp only [Workspace.names, Workspace.modifyNode, map_toList_modify _ _ f _ hf]

theorem pushGraph (w : Workspace) {g : Graph} (hg : g.claimedNodes = []) :
    KeepsNames w { w with graphs := w.graphs.push g } := by
  refine ⟨rfl, ?_⟩
  simp [Workspace.names, hg]

theorem respected : WeaklyRespected KeepsNames where
  trans := trans
  same hnodes _ _ hgraphs hnumber := .of_arrays hnodes hgraphs hnumber
  graph w id _ _ hclaims := .modifyGraph w id hclaims
  subgraph _ _ _ _ := .of_arrays rfl rfl rfl
  pushEdge _ _ := .of_arrays rfl rfl rfl
  pushSubgraph _ _ := .of_arrays rfl rfl rfl
  pushGraph w _ hg := .pushGraph w hg

end KeepsNames

/-! ### What is named -/

theorem mem_names_claimName {name x : String} (h : x ∈ (w.claimName name).names) :
    x ∈ w.names ∨ x = name := by
  unfold claimName at h
  split at h
  · simp only [Workspace.names, modifyGraph, List.mem_append, List.mem_flatMap,
      Array.mem_toList_iff, Array.mem_iff_getElem?, Array.getElem?_modify] at h ⊢
    rcases h with hnode | ⟨graph, ⟨i, hi⟩, hx⟩
    · exact .inl (.inl hnode)
    · split at hi
      · obtain ⟨old, hold, rfl⟩ := Option.map_eq_some_iff.mp hi
        rcases List.mem_cons.mp hx with rfl | hx
        · exact .inr rfl
        · exact .inl (.inr ⟨old, ⟨i, hold⟩, hx⟩)
      · exact .inl (.inr ⟨graph, ⟨i, hi⟩, hx⟩)
  · exact .inl h

/-- Building a node ends before a name is taken, right after that, or with a new node. -/
theorem buildNode_cases (w : Workspace) (spec : NodeSpec) :
    (∃ e, spec.directAttrs = .error e ∧ (w.buildNode spec).2 = w) ∨
      ∃ direct, spec.directAttrs = .ok direct ∧
        ((w.buildNode spec).2 = (w.takeName spec.name).2 ∨
          ∃ id node v, node.name = (w.takeName spec.name).1 ∧
            v = { (w.takeName spec.name).2 with
              nodes := (w.takeName spec.name).2.nodes.push node } ∧
            (w.buildNode spec).2 = (v.claimName node.name).listNode id node.name) := by
  unfold buildNode
  cases spec.directAttrs with
  | error e => exact .inl ⟨e, rfl, rfl⟩
  | ok direct =>
    refine .inr ⟨direct, rfl, ?_⟩
    dsimp only
    split
    · exact .inl rfl
    · exact .inr ⟨_, _, _, rfl, rfl, rfl⟩

theorem names_takeName (w : Workspace) (name : Option String) :
    (w.takeName name).2.names = w.names := by
  cases name <;> rfl

theorem mem_names_pushNode {node : Node} {x : String}
    (h : x ∈ names { w with nodes := w.nodes.push node }) : x ∈ w.names ∨ x = node.name := by
  simp only [Workspace.names, Array.toList_push, List.map_append, List.mem_append] at h ⊢
  rcases h with (hnode | hnew) | hclaim
  · exact .inl (.inl hnode)
  · exact .inr (List.mem_singleton.mp hnew)
  · exact .inl (.inr hclaim)

theorem mem_names_of_node? {id : NodeId} {node : Node} (h : w.node? id = some node) :
    node.name ∈ w.names :=
  List.mem_append_left _
    (List.mem_map.mpr ⟨node, Array.mem_toList_iff.mpr (Array.mem_of_getElem? h), rfl⟩)

/-- The new node is the only one to add a name. -/
theorem mem_names_buildNode {x : String} (h : x ∈ (w.buildNode spec).2.names) :
    x ∈ w.names ∨ (∃ direct, spec.directAttrs = .ok direct) ∧ x = (w.takeName spec.name).1 := by
  rcases w.buildNode_cases spec with
    ⟨e, -, hb⟩ | ⟨direct, hdirect, hb | ⟨id, node, v, hname, rfl, hb⟩⟩
  · exact .inl (hb ▸ h)
  · rw [hb, names_takeName] at h
    exact .inl h
  · rw [hb, (KeepsNames.respected.listNode _ _ _).names] at h
    rw [← hname]
    rcases mem_names_claimName h with h | rfl
    · rcases mem_names_pushNode h with h | rfl
      · exact .inl (w.names_takeName spec.name ▸ h)
      · exact .inr ⟨⟨direct, hdirect⟩, rfl⟩
    · exact .inr ⟨⟨direct, hdirect⟩, rfl⟩

theorem nodeNumber_buildNode (w : Workspace) (spec : NodeSpec) :
    (w.buildNode spec).2.nodeNumber = w.nodeNumber + (spec.generated w).length := by
  have hclaimed (v : Workspace) (name : String) : (v.claimName name).nodeNumber = v.nodeNumber := by
    unfold claimName
    split <;> rfl
  rcases w.buildNode_cases spec with ⟨e, hdirect, hb⟩ | ⟨direct, hdirect, hb⟩
  · rw [hb, NodeSpec.generated, hdirect]
    rfl
  · have htaken : (w.buildNode spec).2.nodeNumber = (w.takeName spec.name).2.nodeNumber := by
      rcases hb with hb | ⟨id, node, v, -, rfl, hb⟩
      · rw [hb]
      · rw [hb, (KeepsNames.respected.listNode _ _ _).number, hclaimed]
    rw [htaken, NodeSpec.generated, hdirect]
    cases spec.name <;> rfl

theorem namesFrom_buildNode (w : Workspace)
    (hchosen : ∀ name, spec.name = some name → chosen name) :
    NamesFrom chosen (spec.generated w) w (w.buildNode spec).2 := by
  refine ⟨?_, w.nodeNumber_buildNode spec, fun x hx => ?_⟩
  · unfold NodeSpec.generated
    split <;> rfl
  · rcases mem_names_buildNode hx with hold | ⟨⟨direct, hdirect⟩, rfl⟩
    · exact .inl hold
    · right
      unfold NodeSpec.generated
      rw [hdirect]
      cases hname : spec.name with
      | some name => exact .inl (hchosen name hname)
      | none => exact .inr (List.mem_singleton_self _)

/-- If all nodes of a plan are named, it generates nothing. -/
theorem namesFrom_planned {plan : Plan}
    (hplan : ∀ spec, plan.node spec → ∃ name, spec.name = some name ∧ chosen name)
    (h : Planned plan w w') : NamesFrom chosen [] w w' := by
  induction h with
  | refl => exact .refl w
  | tail _ hst ih =>
    cases hst with
    | @node spec planned =>
      obtain ⟨name, hname, hchosen⟩ := hplan spec planned
      have hall : ∀ x, spec.name = some x → chosen x :=
        fun x hx => Option.some.inj (hname.symm.trans hx) ▸ hchosen
      have hnone (v : Workspace) : spec.generated v = [] := by
        rw [NodeSpec.generated, hname]
        cases spec.directAttrs <;> rfl
      exact ih.trans (hnone _ ▸ namesFrom_buildNode _ hall)
    | edge planned _ _ => exact ih.keeping (KeepsNames.respected.buildEdge _ _)

theorem namesFrom_buildNodes {factories : List Factory} (hchosen : ∀ f ∈ factories, ∀ name,
    (f.specify (.named f.name)).name = some name → chosen name) (nodes : Keyed NodeId)
    (w : Workspace) :
    NamesFrom chosen (Template.generated factories w) w
      (Template.buildNodes factories nodes w).2 := by
  induction factories generalizing nodes w with
  | nil => exact .refl w
  | cons f rest ih =>
    have hfirst := w.namesFrom_buildNode (hchosen f List.mem_cons_self)
    unfold Template.generated Template.buildNodes
    cases hbuilt : w.buildNode (f.specify (.named f.name)) with
    | mk result v =>
      rw [hbuilt] at hfirst
      cases result with
      | error e => exact hfirst.trans (.refl v)
      | ok id => exact hfirst.trans (ih (fun f hf => hchosen f (List.mem_cons_of_mem _ hf)) _ v)

theorem namesFrom_template (w : Workspace) (t : Template) :
    NamesFrom (fun name => (Operation.template t).Chooses name)
      ((Operation.template t).generated w) w (t.build w).2 := by
  have hnodes : ∀ nodes v, NamesFrom (fun name => (Operation.template t).Chooses name)
      (Template.generated t.factories v) v (Template.buildNodes t.factories nodes v).2 :=
    namesFrom_buildNodes fun f hf name hname => ⟨_, ⟨f, hf, rfl⟩, hname⟩
  cases hclash : Template.firstClash w [] t.names with
  | some name =>
    rw [Operation.generated, hclash, Template.build_of_clash hclash]
    exact .refl w
  | none =>
    cases hwrapper : t.wrapper with
    | none =>
      rw [Operation.generated, hclash, hwrapper, Template.build_of_bare hclash hwrapper]
      exact hnodes .empty w
    | some name =>
      have hmade := KeepsNames.respected.buildSubgraph w (t.wrapperSpec name)
      have hwrapped : KeepsNames w (t.wrapped name w) := ⟨hmade.number, hmade.names⟩
      have hdrawn := (NamesFrom.of_keeps hwrapped).trans (hnodes .empty (t.wrapped name w))
      rw [Operation.generated, hclash, hwrapper, Template.build_of_wrapper hclash hwrapper]
      exact hdrawn.keeping (KeepsNames.respected.leave _ _)

/-- Classes all have names. -/
theorem namesFrom_buildClassDiagram (w : Workspace) (diagram : ClassDiagram) :
    NamesFrom (fun name => (Operation.classDiagram diagram).Chooses name) [] w
      (w.buildClassDiagram diagram).2 := by
  have hplanned : Planned (Operation.classDiagram diagram).plan w (w.buildClassDiagram diagram).2 :=
    planned_buildClassDiagram w (fun c hc => .inl ⟨c, hc, rfl⟩)
      (fun r hr => ⟨.inr ⟨r, hr, .inl rfl⟩, .inr ⟨r, hr, .inr rfl⟩⟩)
      fun r hr source target => ⟨r, hr, source, target, rfl⟩
  refine namesFrom_planned (fun spec hspec => ?_) hplanned
  rcases id hspec with ⟨c, -, rfl⟩ | ⟨r, -, rfl | rfl⟩
  · exact ⟨c.name, rfl, _, hspec, rfl⟩
  · exact ⟨r.source, rfl, _, hspec, rfl⟩
  · exact ⟨r.target, rfl, _, hspec, rfl⟩

theorem namesFrom_buildClassGraph (w : Workspace) (diagram : ClassDiagram)
    (options : ClassGraphOptions) :
    NamesFrom (fun name => (Operation.classGraph diagram options).Chooses name) [] w
      (w.buildClassGraph diagram options).2 := by
  have hmade := KeepsNames.respected.buildGraph w options.spec
  unfold buildClassGraph
  cases hg : (w.buildGraph options.spec).2.ambient.graph? with
  | some outer =>
    simp only [enterGraph_eq_of_some (w.buildGraph options.spec).1 hg]
    exact .of_keeps hmade
  | none =>
    simp only [enterGraph_eq_of_none (w.buildGraph options.spec).1 hg]
    have hopened : KeepsNames w { (w.buildGraph options.spec).2 with
        ambient := (w.buildGraph options.spec).2.opened (.graph (w.buildGraph options.spec).1) } :=
      ⟨hmade.number, hmade.names⟩
    exact ((NamesFrom.of_keeps hopened).trans (namesFrom_buildClassDiagram _ diagram)).keeping
      (KeepsNames.respected.leave _ _)

/-- Entries of a mind map are named by their labels. -/
theorem namesFrom_buildMindMap (w : Workspace) (outline : Outline) :
    NamesFrom (fun name => (Operation.mindMap outline).Chooses name) [] w
      (w.buildMindMap outline).2 := by
  have hplanned : Planned (Operation.mindMap outline).plan w (w.buildMindMap outline).2 :=
    planned_buildMindMap w (fun d e he => ⟨d, e, he, rfl⟩)
      fun source target => ⟨source, target, rfl⟩
  refine namesFrom_planned (fun spec hspec => ?_) hplanned
  obtain ⟨depth, entry, hentry, rfl⟩ := hspec
  exact ⟨entry.label, rfl, _, ⟨depth, entry, hentry, rfl⟩, rfl⟩

/-- Whatever is done, all new names were chosen by it or generated for it. -/
theorem namesFrom_perform (w : Workspace) (op : Operation) :
    NamesFrom (fun name => op.Chooses name) (op.generated w) w (w.perform op) := by
  cases op with
  | node spec => exact w.namesFrom_buildNode fun name hname => ⟨spec, rfl, hname⟩
  | template t => exact w.namesFrom_template t
  | classDiagram diagram => exact w.namesFrom_buildClassDiagram diagram
  | classGraph diagram options => exact w.namesFrom_buildClassGraph diagram options
  | mindMap outline => exact w.namesFrom_buildMindMap outline
  | graph spec => exact .of_keeps (KeepsNames.respected.buildGraph w spec)
  | subgraph spec => exact .of_keeps (KeepsNames.respected.buildSubgraph w spec)
  | edge spec => exact .of_keeps (KeepsNames.respected.buildEdge w spec)
  | relate source target kind label => exact .of_keeps (KeepsNames.respected.buildEdge w _)
  | connect target chain => exact .of_keeps (KeepsNames.respected.buildEdge w _)
  | connectAll targets chain => exact .of_keeps (KeepsNames.respected.fanEdges chain.tail targets w)
  | setChain key value chain =>
    exact .of_keeps (KeepsNames.respected.foldl (fun w edge => w.setEdge edge key value)
      (fun _ _ => ⟨rfl, rfl⟩) chain.edges w)
  | updateChain attrs chain =>
    exact .of_keeps (KeepsNames.respected.foldl (fun w edge => w.updateEdge edge attrs)
      (fun _ _ => ⟨rfl, rfl⟩) chain.edges w)
  | setNode id key value => exact .of_keeps (KeepsNames.modifyNode w id fun _ => rfl)
  | updateNode id attrs => exact .of_keeps (KeepsNames.modifyNode w id fun _ => rfl)
  | setGraph id key value => exact .of_keeps (KeepsNames.modifyGraph w id fun _ => rfl)
  | setEdge _ _ _ | updateEdge _ _ | setSubgraph _ _ _ => exact .of_keeps ⟨rfl, rfl⟩

theorem InUse.mem_names (hw : w.layout.WellFormed) {name : String} (h : w.InUse name) :
    name ∈ w.names := by
  unfold InUse at h
  split at h
  · next g _ =>
    cases hg : w.graph? g with
    | none => simp [layout, hg] at h
    | some graph =>
      have hclaim : name ∈ graph.claimedNodes := by simpa [layout, hg, Graph.claims] using h
      exact List.mem_append_right _
        (List.mem_flatMap.mpr ⟨graph, Array.mem_toList_iff.mpr (Array.mem_of_getElem? hg), hclaim⟩)
  · obtain ⟨c, -, n, hn, rfl⟩ := h
    have hhas : w.HasNode n := by
      rw [HasNode, ← w.length_nodes_layout]
      exact hw.node_known hn
    obtain ⟨node, hnode⟩ := Option.isSome_iff_exists.mp (hasNode_iff.mp hhas)
    rw [nodeName_layout, nodeName, hnode]
    exact mem_names_of_node? hnode
  · exact h.elim

/-! ### A node without a name -/

theorem takeName_unnamed (unnamed : spec.name = none) :
    (w.takeName spec.name).1 = automaticName w.nodeNumber := by
  rw [unnamed]
  rfl

theorem generated_unnamed (unnamed : spec.name = none)
    (label : spec.html = none ∨ spec.markdown = none) :
    spec.generated w = [automaticName w.nodeNumber] := by
  obtain ⟨direct, hdirect⟩ := exists_directAttrs label
  rw [NodeSpec.generated, hdirect, unnamed]
  rfl

theorem buildNode_unnamed (hw : w.layout.WellFormed) (unnamed : spec.name = none)
    (label : spec.html = none ∨ spec.markdown = none) :
    (w.buildNode spec).1 =
      if w.nameTaken (automaticName w.nodeNumber) then
        .error (.duplicateNode (automaticName w.nodeNumber))
      else .ok ⟨w.nodes.size⟩ := by
  rw [buildNode_fst label, nameTaken_takeName hw, takeName_unnamed unnamed]

theorem Settled.unnamed_built_iff {entries : List Entered} (h : w.Settled entries) {g : GraphId}
    (hg : w.ambient.graph? = some g) (unnamed : spec.name = none)
    (label : spec.html = none ∨ spec.markdown = none) :
    (∃ id, (w.buildNode spec).1 = .ok id) ↔
      ∀ n, w.layout.NodeIn g n → w.nodeName n ≠ automaticName w.nodeNumber := by
  have htaken : w.nameTaken (automaticName w.nodeNumber) = true ↔
      ∃ n, w.layout.NodeIn g n ∧ w.nodeName n = automaticName w.nodeNumber := by
    rw [nameTaken_of_graph hg, h.ledgered.names g]
    simp only [nodeName_layout]
  rw [buildNode_unnamed h.wellFormed unnamed label]
  split
  · next ht =>
    obtain ⟨n, hn, hname⟩ := htaken.mp ht
    exact iff_of_false nofun fun hall => hall n hn hname
  · next ht => exact iff_of_true ⟨_, rfl⟩ fun n hn hname => ht (htaken.mpr ⟨n, hn, hname⟩)

end Workspace

namespace Session

/-- A run with the names that are generated in it, in their order. -/
inductive Naming : List Operation → List String → Session → Prop where
  | refl : Naming [] [] start
  | operation {ops : List Operation} {generated : List String} {s : Session}
      (h : Naming ops generated s) (op : Operation) (known : op.Known s.workspace) :
      Naming (ops ++ [op]) (generated ++ op.generated s.workspace) (s.perform op)
  | scoping {ops : List Operation} {generated : List String} {s t : Session}
      (h : Naming ops generated s) (hst : Scoping s t) : Naming ops generated t

variable {s t : Session} {ops : List Operation} {generated : List String}

theorem Naming.run (h : Naming ops generated s) : Run start ops s := by
  induction h with
  | refl => exact .refl
  | operation _ op known ih => exact ih.operation op known
  | scoping _ hst ih => exact ih.scoping hst

theorem exists_naming (hs : Reachable s) : ∃ ops generated, Naming ops generated s := by
  obtain ⟨ops, hrun⟩ := exists_run hs
  refine ⟨ops, ?_⟩
  clear hs
  induction hrun with
  | refl => exact ⟨[], .refl⟩
  | operation _ op known ih =>
    obtain ⟨generated, hnaming⟩ := ih
    exact ⟨_, hnaming.operation op known⟩
  | scoping _ hst ih =>
    obtain ⟨generated, hnaming⟩ := ih
    exact ⟨generated, hnaming.scoping hst⟩

theorem Scoping.keepsNames (h : Scoping s t) : s.workspace.KeepsNames t.workspace := by
  cases h with
  | opened h =>
    obtain ⟨rfl, -⟩ := h.eq_opened
    exact ⟨rfl, rfl⟩
  | refused known h =>
    obtain rfl := (Workspace.enter_error h).2.2
    exact ⟨rfl, rfl⟩
  | dropped unwinding h =>
    rw [drop, Workspace.dropScope_eq_leave]
    exact Workspace.KeepsNames.respected.leave s.workspace _

/-- Whatever name there is was chosen in the run or generated in it, and those are numbered
through. -/
theorem Naming.namesFrom (h : Naming ops generated s) :
    Workspace.NamesFrom (fun name => ∃ op ∈ ops, op.Chooses name) generated .empty s.workspace := by
  induction h with
  | refl => exact .refl _
  | @operation ops generated s _ op known ih =>
    have hop := s.workspace.namesFrom_perform op
    refine (ih.mono ?_).trans (hop.mono ?_)
    · rintro name ⟨op', hop', hchosen⟩
      exact ⟨op', List.mem_append_left _ hop', hchosen⟩
    · exact fun name hchosen => ⟨op, List.mem_append_right _ (List.mem_singleton_self op), hchosen⟩
  | scoping _ hst ih => exact ih.keeping hst.keepsNames

theorem Naming.generated_eq (h : Naming ops generated s) :
    generated = (List.range s.workspace.nodeNumber).map automaticName := by
  have hnames := h.namesFrom
  have hnumber : s.workspace.nodeNumber = generated.length :=
    hnames.number.trans (Nat.zero_add _)
  rw [hnumber, List.range_eq_range']
  exact hnames.consecutive

/-- How it goes when a node is built without a name: what it is called, what can be in the
way of that, and what it takes for that to happen. -/
structure Draws (s : Session) (ops : List Operation) (generated : List String) (spec : NodeSpec)
    (name : String) : Prop where
  drawn : spec.generated s.workspace = [name]
  distinct : (generated ++ [name]).Nodup
  refused : ∀ e, (s.workspace.buildNode spec).1 = .error e ↔
    e = .duplicateNode name ∧ s.workspace.InUse name
  chosen : s.workspace.InUse name → ∃ op ∈ ops, op.Chooses name
  built : ∀ id, (s.workspace.buildNode spec).1 = .ok id →
    ((s.workspace.buildNode spec).2.node? id).map Node.name = some name
  unchosen : (∀ op ∈ ops, ¬ op.Chooses name) →
    (∃ id, (s.workspace.buildNode spec).1 = .ok id) ∧
      ∀ id node, s.workspace.node? id = some node → node.name ≠ name
  orderly : Orderly s → ∀ g, s.workspace.ambient.graph? = some g →
    ((∃ id, (s.workspace.buildNode spec).1 = .ok id) ↔
      ∀ n, s.workspace.layout.NodeIn g n → s.workspace.nodeName n ≠ name)

/-- The number of the next name has not been drawn yet, so someone must have chosen it. -/
theorem Naming.chosen (h : Naming ops generated s)
    (hmem : automaticName s.workspace.nodeNumber ∈ s.workspace.names) :
    ∃ op ∈ ops, op.Chooses (automaticName s.workspace.nodeNumber) := by
  rcases h.namesFrom.names _ hmem with hnone | hchosen | hgenerated
  · cases hnone
  · exact hchosen
  · rw [h.generated_eq] at hgenerated
    obtain ⟨k, hk, heq⟩ := List.mem_map.mp hgenerated
    exact absurd (automaticName_injective heq) (Nat.ne_of_lt (List.mem_range.mp hk))

theorem Naming.nodup (h : Naming ops generated s) :
    (generated ++ [automaticName s.workspace.nodeNumber]).Nodup := by
  rw [h.generated_eq, ← List.map_singleton, ← List.map_append, ← List.range_succ]
  exact List.Pairwise.map _ (fun _ _ hne heq => hne (automaticName_injective heq)) List.nodup_range

/-- A node without a name gets one that was never generated before, and is refused only if
the name was chosen in the run. -/
theorem unnamed_node_named (h : Naming ops generated s) {spec : NodeSpec}
    (unnamed : spec.name = none) (label : spec.html = none ∨ spec.markdown = none) :
    ∃ name, s.Draws ops generated spec name := by
  have hw := (tended_of_reachable (h.run.reachable .refl)).wellFormed
  have hbuild := Workspace.buildNode_unnamed hw unnamed label
  refine ⟨automaticName s.workspace.nodeNumber, Workspace.generated_unnamed unnamed label, h.nodup,
    ?_, fun hin => h.chosen (hin.mem_names hw), ?_, ?_, ?_⟩
  · intro e
    rw [hbuild, ← Workspace.nameTaken_iff_inUse hw]
    split
    · next ht => simp [ht, eq_comm]
    · next ht => simp [ht]
  · intro id hok
    obtain ⟨direct, -, hnode⟩ := Workspace.node?_buildNode hok
    rw [hnode]
    exact congrArg some (Workspace.takeName_unnamed unnamed)
  · intro hunchosen
    have hnew : automaticName s.workspace.nodeNumber ∉ s.workspace.names := by
      intro hmem
      obtain ⟨op, hop, hchosen⟩ := h.chosen hmem
      exact hunchosen op hop hchosen
    constructor
    · rw [hbuild, if_neg fun ht => hnew (((Workspace.nameTaken_iff_inUse hw _).mp ht).mem_names hw)]
      exact ⟨_, rfl⟩
    · rintro id node hnode heq
      exact hnew (heq ▸ Workspace.mem_names_of_node? hnode)
  · intro horderly g hg
    exact (settled_of_orderly horderly).unnamed_built_iff hg unnamed label

/-- A node is called like the first that will have no name. -/
def foretold : Session := divided.perform (.node (.named "node_0"))

/-- The name was chosen before its turn, so the node is refused though it has no name. -/
theorem foretold_refused :
    Reachable foretold ∧ foretold.workspace.containerOpen = true ∧
      NodeSpec.anonymous.generated foretold.workspace = ["node_0"] ∧
      (foretold.workspace.buildNode .anonymous).1 = .error (.duplicateNode "node_0") :=
  ⟨(Orderly.reachable divided_orderly).tail (.operation _ trivial), rfl, rfl, rfl⟩

/-- The number was used up, and the next node has another name. -/
theorem retried_drawn :
    ∃ ops, Naming ops ["node_0"] (foretold.perform (.node .anonymous)) ∧
      (foretold.perform (.node .anonymous)).Draws ops ["node_0"] .anonymous "node_1" := by
  have hgraph : (Opening.graph ⟨0⟩).Known (start.perform (.graph (.plain "g"))).workspace :=
    Nat.zero_lt_one
  have hmade := Naming.refl.operation (.graph (.plain "g")) trivial
  have hopen := hmade.scoping (.opened (opens_opened hgraph fun _ => rfl))
  have hdivided := hopen.operation (.subgraph (.named "s")) trivial
  have hforetold := hdivided.operation (.node (.named "node_0")) trivial
  have hretried := hforetold.operation (.node .anonymous) trivial
  have hunnamed : NodeSpec.anonymous.name = none := rfl
  obtain ⟨name, hdraws⟩ := unnamed_node_named hretried hunnamed (.inl rfl)
  have hname : name = "node_1" := (List.singleton_inj.mp hdraws.drawn).symm
  exact ⟨_, hretried, hname ▸ hdraws⟩

end Session

end DotDiagram
