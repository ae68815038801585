import DotDiagram.Proofs.Keyed
import DotDiagram.Proofs.Workspace.Session

/-! Drawing. Class diagrams, mind maps, groups and chains are made of nodes and edges
alone, one after another, and they connect only nodes that they made or were given. What
these nodes and edges may be is planned beforehand. -/

namespace DotDiagram

namespace Outline

/-- An entry of the outline, and its depth if the outline itself stands at `depth`. -/
inductive Has (outline : Outline) (depth : Nat) : Nat → Outline → Prop where
  | self : Has outline depth depth outline
  | child {d : Nat} {e c : Outline} (h : Has outline depth d e) (hc : c ∈ e.children) :
      Has outline depth (d + 1) c

theorem Has.of_child {outline c : Outline} {depth d : Nat} {e : Outline}
    (h : c.Has (depth + 1) d e) (hc : c ∈ outline.children) : outline.Has depth d e := by
  induction h with
  | self => exact .child .self hc
  | child _ hc ih => exact .child ih hc

end Outline

namespace Workspace

section

variable (w : Workspace)

@[simp]
theorem nodes_claimName (name : String) : (w.claimName name).nodes = w.nodes := by
  unfold claimName
  split <;> rfl

@[simp]
theorem nodes_claimPair (key : String × String) : (w.claimPair key).nodes = w.nodes := by
  unfold claimPair
  split <;> rfl

@[simp]
theorem nodes_listNode (id : NodeId) (name : String) : (w.listNode id name).nodes = w.nodes := by
  unfold listNode
  split <;> rfl

@[simp]
theorem nodes_listEdge (id : EdgeId) : (w.listEdge id).nodes = w.nodes := by
  unfold listEdge
  split <;> rfl

@[simp]
theorem nodes_takeName (name : Option String) : (w.takeName name).2.nodes = w.nodes := by
  cases name <;> rfl

@[simp]
theorem nodes_buildEdge (spec : EdgeSpec) : (w.buildEdge spec).2.nodes = w.nodes := by
  simp only [buildEdge]
  split <;> simp

@[simp]
theorem edges_claimPair (key : String × String) : (w.claimPair key).edges = w.edges := by
  unfold claimPair
  split <;> rfl

@[simp]
theorem edges_listEdge (id : EdgeId) : (w.listEdge id).edges = w.edges := by
  unfold listEdge
  split <;> rfl

@[simp]
theorem edges_takeName (name : Option String) : (w.takeName name).2.edges = w.edges := by
  cases name <;> rfl

@[simp]
theorem edges_claimName (name : String) : (w.claimName name).edges = w.edges := by
  unfold claimName
  split <;> rfl

@[simp]
theorem edges_listNode (id : NodeId) (name : String) : (w.listNode id name).edges = w.edges := by
  unfold listNode
  split <;> rfl

@[simp]
theorem edges_buildNode (spec : NodeSpec) : (w.buildNode spec).2.edges = w.edges := by
  unfold buildNode
  cases spec.directAttrs with
  | error e => rfl
  | ok direct =>
    simp only
    split <;> simp

theorem edges_buildEdge (spec : EdgeSpec) :
    (w.buildEdge spec).2.edges =
      w.edges.push ⟨spec.source, spec.target, (w.ambient.edgeLayers spec.styles spec.attrs).resolve,
        w.containerOpen && !w.pairTaken (w.nodeName spec.source, w.nodeName spec.target)⟩ := by
  simp only [buildEdge]
  split <;> simp

end

variable {w w' : Workspace}

theorem HasNode.buildNode {n : NodeId} (h : w.HasNode n) (spec : NodeSpec) :
    (w.buildNode spec).2.HasNode n := by
  unfold Workspace.buildNode HasNode at *
  cases spec.directAttrs with
  | error e => exact h
  | ok direct =>
    simp only
    split
    · simpa using h
    · simpa using Nat.lt_succ_of_lt h

theorem hasNode_of_buildNode {spec : NodeSpec} {id : NodeId}
    (h : w.buildNode spec = (.ok id, w')) : w'.HasNode id := by
  unfold buildNode at h
  cases hd : spec.directAttrs with
  | error e => simp [hd] at h
  | ok direct =>
    simp only [hd] at h
    split at h
    · cases h
    · cases h
      simp [HasNode]

/-- A node is asked for, or an edge is made between nodes that exist. -/
inductive Draw (w : Workspace) : Workspace → Prop where
  | node (spec : NodeSpec) : Draw w (w.buildNode spec).2
  | edge (spec : EdgeSpec) (source_known : w.HasNode spec.source)
      (target_known : w.HasNode spec.target) : Draw w (w.buildEdge spec).2

abbrev Drawing (w w' : Workspace) : Prop := Relation.ReflTransGen Draw w w'

theorem HasNode.drawing {n : NodeId} (h : w.HasNode n) (hd : Drawing w w') : w'.HasNode n := by
  induction hd with
  | refl => exact h
  | tail _ hst ih =>
    cases hst with
    | node spec => exact ih.buildNode spec
    | edge spec _ _ =>
      rw [HasNode, nodes_buildEdge]
      exact ih

/-- All that the map holds exists. -/
def HasNodes (w : Workspace) (nodes : Keyed NodeId) : Prop :=
  ∀ name n, nodes.get? name = some n → w.HasNode n

theorem hasNodes_empty (w : Workspace) : w.HasNodes .empty := by
  intro name n hn
  cases hn

namespace HasNodes

variable {nodes : Keyed NodeId}

theorem drawing (h : w.HasNodes nodes) (hd : Drawing w w') : w'.HasNodes nodes :=
  fun name n hn => (h name n hn).drawing hd

theorem insert (h : w.HasNodes nodes) (name : String) {n : NodeId} (hn : w.HasNode n) :
    w.HasNodes (nodes.insert name n) := by
  intro name' m hm
  rw [Keyed.get?_insert] at hm
  split at hm
  · cases hm
    exact hn
  · exact h name' m hm

end HasNodes

/-- The nodes and the edges that are to be drawn. -/
structure Plan where
  node : NodeSpec → Prop
  edge : EdgeSpec → Prop

def Plan.any : Plan := ⟨fun _ => True, fun _ => True⟩

/-- A node or an edge of the plan is drawn. -/
inductive PlannedDraw (plan : Plan) (w : Workspace) : Workspace → Prop where
  | node {spec : NodeSpec} (planned : plan.node spec) : PlannedDraw plan w (w.buildNode spec).2
  | edge {spec : EdgeSpec} (planned : plan.edge spec) (source_known : w.HasNode spec.source)
      (target_known : w.HasNode spec.target) : PlannedDraw plan w (w.buildEdge spec).2

abbrev Planned (plan : Plan) (w w' : Workspace) : Prop :=
  Relation.ReflTransGen (PlannedDraw plan) w w'

theorem PlannedDraw.draw {plan : Plan} (h : PlannedDraw plan w w') : Draw w w' := by
  cases h with
  | node _ => exact .node _
  | edge _ source_known target_known => exact .edge _ source_known target_known

theorem Planned.drawing {plan : Plan} (h : Planned plan w w') : Drawing w w' :=
  Relation.ReflTransGen.mono (fun _ _ hd => PlannedDraw.draw hd) _ _ h

section

variable {plan : Plan}

theorem planned_node (w : Workspace) {spec : NodeSpec} (h : plan.node spec) :
    Planned plan w (w.buildNode spec).2 :=
  .single (.node h)

theorem planned_buildClasses {classes : List ClassDecl}
    (hplan : ∀ c ∈ classes, plan.node (ClassNode.ofDecl c).spec) {nodes : Keyed NodeId}
    (hn : w.HasNodes nodes) :
    Planned plan w (w.buildClasses classes nodes).2 ∧
      ∀ nodes', (w.buildClasses classes nodes).1 = .ok nodes' →
        (w.buildClasses classes nodes).2.HasNodes nodes' := by
  induction classes generalizing nodes w with
  | nil => exact ⟨.refl, fun nodes' h => by cases h; exact hn⟩
  | cons c rest ih =>
    have hb := planned_node w (hplan c List.mem_cons_self)
    unfold Workspace.buildClasses
    split
    · next e w' heq =>
      rw [heq] at hb
      exact ⟨hb, nofun⟩
    · next node w' heq =>
      rw [heq] at hb
      obtain ⟨hd, hknown⟩ := ih (fun c hc => hplan c (List.mem_cons_of_mem _ hc))
        ((hn.drawing hb.drawing).insert c.name (hasNode_of_buildNode heq))
      exact ⟨hb.trans hd, hknown⟩

theorem planned_classNamed {name : String} (hplan : plan.node (ClassNode.plain name).spec)
    {nodes : Keyed NodeId} (hn : w.HasNodes nodes) :
    Planned plan w (w.classNamed name nodes).2 ∧
      ∀ node nodes', (w.classNamed name nodes).1 = .ok (node, nodes') →
        (w.classNamed name nodes).2.HasNode node ∧
          (w.classNamed name nodes).2.HasNodes nodes' := by
  have hb := planned_node w hplan
  unfold Workspace.classNamed
  split
  · next node hget =>
    refine ⟨.refl, fun _ _ h => ?_⟩
    cases h
    exact ⟨hn name node hget, hn⟩
  · split
    · next e w' heq =>
      rw [heq] at hb
      exact ⟨hb, nofun⟩
    · next node w' heq =>
      rw [heq] at hb
      have hnode := hasNode_of_buildNode heq
      refine ⟨hb, fun _ _ h => ?_⟩
      cases h
      exact ⟨hnode, (hn.drawing hb.drawing).insert name hnode⟩

theorem planned_buildRelations {relations : List Relation}
    (hnode : ∀ r ∈ relations, plan.node (ClassNode.plain r.source).spec ∧
      plan.node (ClassNode.plain r.target).spec)
    (hedge : ∀ r ∈ relations, ∀ source target,
      plan.edge ⟨source, target, [r.kind.style], .ofList (optionalAttr "label" r.label)⟩)
    {nodes : Keyed NodeId} (hn : w.HasNodes nodes) :
    Planned plan w (w.buildRelations relations nodes).2 := by
  induction relations generalizing nodes w with
  | nil => exact .refl
  | cons r rest ih =>
    obtain ⟨hsource, htarget⟩ := hnode r List.mem_cons_self
    obtain ⟨hs, hsource⟩ := planned_classNamed hsource hn
    unfold Workspace.buildRelations
    split
    · next e w₁ heq => rwa [heq] at hs
    · next source nodes₁ w₁ heq =>
      rw [heq] at hs hsource
      obtain ⟨hknown, hn₁⟩ := hsource source nodes₁ rfl
      obtain ⟨ht, htarget⟩ := planned_classNamed htarget hn₁
      split
      · next e w₂ heq => exact hs.trans (by rwa [heq] at ht)
      · next target nodes₂ w₂ heq =>
        rw [heq] at ht htarget
        obtain ⟨hknown', hn₂⟩ := htarget target nodes₂ rfl
        have he : PlannedDraw plan w₂ (w₂.relate source target r.kind r.label).2 :=
          .edge (hedge r List.mem_cons_self source target) (hknown.drawing ht.drawing) hknown'
        have hrest := ih (fun r hr => hnode r (List.mem_cons_of_mem _ hr))
          (fun r hr => hedge r (List.mem_cons_of_mem _ hr)) (hn₂.drawing (.single he.draw))
        exact ((hs.trans ht).tail he).trans hrest

theorem planned_buildClassDiagram (w : Workspace) {diagram : ClassDiagram}
    (hclass : ∀ c ∈ diagram.classes, plan.node (ClassNode.ofDecl c).spec)
    (hnode : ∀ r ∈ diagram.relations, plan.node (ClassNode.plain r.source).spec ∧
      plan.node (ClassNode.plain r.target).spec)
    (hedge : ∀ r ∈ diagram.relations, ∀ source target,
      plan.edge ⟨source, target, [r.kind.style], .ofList (optionalAttr "label" r.label)⟩) :
    Planned plan w (w.buildClassDiagram diagram).2 := by
  obtain ⟨hc, hknown⟩ := planned_buildClasses hclass w.hasNodes_empty
  unfold Workspace.buildClassDiagram
  split
  · next e w' heq => rwa [heq] at hc
  · next nodes w' heq =>
    rw [heq] at hc hknown
    exact hc.trans (planned_buildRelations hnode hedge (hknown nodes rfl))

mutual

theorem planned_growEntry {w : Workspace} {parent : NodeId} (hp : w.HasNode parent) {depth : Nat}
    {entry : Outline} (hnode : ∀ d e, entry.Has depth d e → plan.node ((e.level d).spec e.label))
    (hedge : ∀ source target, plan.edge ⟨source, target, [branchEdge], .empty⟩) :
    Planned plan w (growEntry parent depth entry w).2 := by
  obtain ⟨label, children⟩ := entry
  have hb := planned_node w (hnode depth _ .self)
  rw [Outline.label] at hb
  unfold Workspace.growEntry
  split
  · next e w' heq => rwa [heq] at hb
  · next node w' heq =>
    rw [heq] at hb
    have hknown := hasNode_of_buildNode heq
    have he : PlannedDraw plan w' (w'.buildEdge ⟨parent, node, [branchEdge], .empty⟩).2 :=
      .edge (hedge parent node) (hp.drawing hb.drawing) hknown
    exact (hb.tail he).trans (planned_growEntries (hknown.drawing (.single he.draw))
      (fun c hc d e hde => hnode d e (hde.of_child hc)) hedge)

theorem planned_growEntries {w : Workspace} {parent : NodeId} (hp : w.HasNode parent)
    {depth : Nat} {entries : List Outline} (hnode : ∀ entry ∈ entries, ∀ d e,
      entry.Has depth d e → plan.node ((e.level d).spec e.label))
    (hedge : ∀ source target, plan.edge ⟨source, target, [branchEdge], .empty⟩) :
    Planned plan w (growEntries parent depth entries w).2 := by
  cases entries with
  | nil => exact .refl
  | cons entry rest =>
    have he := planned_growEntry hp (hnode entry List.mem_cons_self) hedge
    unfold Workspace.growEntries
    split
    · next e w' heq => rwa [heq] at he
    · next w' heq =>
      rw [heq] at he
      exact he.trans (planned_growEntries (hp.drawing he.drawing)
        (fun entry hentry => hnode entry (List.mem_cons_of_mem _ hentry)) hedge)

end

theorem planned_buildMindMap (w : Workspace) {outline : Outline}
    (hnode : ∀ d e, outline.Has 0 d e → plan.node ((e.level d).spec e.label))
    (hedge : ∀ source target, plan.edge ⟨source, target, [branchEdge], .empty⟩) :
    Planned plan w (w.buildMindMap outline).2 := by
  have hb := planned_node w (hnode 0 outline .self)
  unfold Workspace.buildMindMap
  split
  · next e w' heq => rwa [heq] at hb
  · next topic w' heq =>
    rw [heq] at hb
    exact hb.trans (planned_growEntries (hasNode_of_buildNode heq)
      (fun c hc d e hde => hnode d e (hde.of_child hc)) hedge)

theorem planned_buildNodes (w : Workspace) {factories : List Factory}
    (hplan : ∀ f ∈ factories, plan.node (f.specify (.named f.name))) (nodes : Keyed NodeId) :
    Planned plan w (Template.buildNodes factories nodes w).2 := by
  induction factories generalizing nodes w with
  | nil => exact .refl
  | cons f rest ih =>
    have hb := planned_node w (hplan f List.mem_cons_self)
    unfold Template.buildNodes
    split
    · next e w' heq => rwa [heq] at hb
    · next node w' heq =>
      rw [heq] at hb
      exact hb.trans (ih w' (fun f hf => hplan f (List.mem_cons_of_mem _ hf))
        (nodes.insert f.name node))

theorem planned_fanEdges {source : NodeId} {targets : List NodeId}
    (hplan : ∀ target ∈ targets, plan.edge (.plain source target)) (hs : w.HasNode source)
    (ht : ∀ target ∈ targets, w.HasNode target) :
    Planned plan w (Chain.fanEdges source targets w).2 := by
  induction targets generalizing w with
  | nil => exact .refl
  | cons target rest ih =>
    have he : PlannedDraw plan w (w.buildEdge (.plain source target)).2 :=
      .edge (hplan target List.mem_cons_self) hs (ht _ List.mem_cons_self)
    have hknown : ∀ {n}, w.HasNode n → (w.buildEdge (.plain source target)).2.HasNode n :=
      fun hn => hn.drawing (.single he.draw)
    exact .head he (ih (fun n hn => hplan n (List.mem_cons_of_mem _ hn)) (hknown hs)
      fun n hn => hknown (ht n (List.mem_cons_of_mem _ hn)))

end

theorem drawing_buildClassDiagram (w : Workspace) (diagram : ClassDiagram) :
    Drawing w (w.buildClassDiagram diagram).2 :=
  have h : Planned .any w (w.buildClassDiagram diagram).2 :=
    planned_buildClassDiagram w (fun _ _ => trivial) (fun _ _ => ⟨trivial, trivial⟩)
      fun _ _ _ _ => trivial
  h.drawing

theorem drawing_buildMindMap (w : Workspace) (outline : Outline) :
    Drawing w (w.buildMindMap outline).2 :=
  have h : Planned .any w (w.buildMindMap outline).2 :=
    planned_buildMindMap w (fun _ _ _ => trivial) fun _ _ => trivial
  h.drawing

theorem drawing_buildNodes (w : Workspace) (factories : List Factory) (nodes : Keyed NodeId) :
    Drawing w (Template.buildNodes factories nodes w).2 :=
  have h : Planned .any w (Template.buildNodes factories nodes w).2 :=
    planned_buildNodes w (fun _ _ => trivial) nodes
  h.drawing

theorem drawing_fanEdges {source : NodeId} {targets : List NodeId} (hs : w.HasNode source)
    (ht : ∀ target ∈ targets, w.HasNode target) :
    Drawing w (Chain.fanEdges source targets w).2 :=
  have h : Planned .any w (Chain.fanEdges source targets w).2 :=
    planned_fanEdges (fun _ _ => trivial) hs ht
  h.drawing

end Workspace

end DotDiagram
