import DotDiagram.Proofs.Workspace.Groups

/-! Extension of templates. It does not matter how extensions are grouped, and an empty base
adds nothing. But a template that takes over the wrapper of its base does not take over the
attributes of that wrapper. So the empty template, extended by another, builds the same as that
one does, but for the attributes of the wrapper. -/

namespace DotDiagram

theorem Keyed.eq_nil_of_ofList {α : Type} {entries : List (String × α)}
    (h : ofList entries = empty) : entries = [] := by
  cases entries with
  | nil => rfl
  | cons e rest =>
    have hmem : e.1 ∈ (ofList (e :: rest)).keys := by
      rw [ofList, keys_insertAll, List.mem_eraseDups]
      exact List.mem_cons_self
    rw [h] at hmem
    cases hmem

namespace Workspace

/-- The subgraph gets other attributes. -/
def paint (id : SubgraphId) (attrs : AttrSet) (w : Workspace) : Workspace :=
  w.modifySubgraph id fun s => { s with attrs }

section

variable (w : Workspace) (id : SubgraphId) (attrs : AttrSet)

theorem modifySubgraph_paint {f : Subgraph → Subgraph} (other : SubgraphId)
    (h : ∀ s, f { s with attrs } = { f s with attrs }) :
    (w.paint id attrs).modifySubgraph other f = (w.modifySubgraph other f).paint id attrs := by
  let g : Subgraph → Subgraph := fun s => { s with attrs }
  have hsubgraphs : (w.subgraphs.modify id.index g).modify other.index f =
      (w.subgraphs.modify other.index f).modify id.index g := by
    apply Array.ext_getElem?
    intro i
    simp only [Array.getElem?_modify]
    by_cases hi : id.index = i <;> by_cases ho : other.index = i <;>
      cases w.subgraphs[i]? <;> simp [hi, ho, g, h]
  simp only [paint, modifySubgraph]
  rw [hsubgraphs]

theorem paint_of_size_le (h : w.subgraphs.size ≤ id.index) : w.paint id attrs = w := by
  have hsubgraphs : w.subgraphs.modify id.index (fun s => { s with attrs }) = w.subgraphs := by
    apply Array.ext_getElem?
    intro i
    rw [Array.getElem?_modify]
    by_cases hi : id.index = i
    · rw [if_pos hi, Array.getElem?_eq_none (hi ▸ h)]
      rfl
    · rw [if_neg hi]
  simp only [paint, modifySubgraph, hsubgraphs]

theorem subgraph?_paint (s : SubgraphId) : (w.paint id attrs).subgraph? s =
    if s = id then (w.subgraph? id).map fun s => { s with attrs } else w.subgraph? s :=
  subgraph?_modifySubgraph id s _

theorem findWithin_paint (name : String) (fuel : Nat) (s : SubgraphId) :
    (w.paint id attrs).findWithin name fuel s = w.findWithin name fuel s := by
  induction fuel generalizing s with
  | zero => rfl
  | succ fuel ih =>
    rw [findWithin, findWithin, subgraph?_paint]
    by_cases hs : s = id
    · rw [if_pos hs, hs]
      cases w.subgraph? id with
      | none => rfl
      | some sub => simp only [Option.map_some, funext ih]
    · rw [if_neg hs]
      cases w.subgraph? s with
      | none => rfl
      | some sub => simp only [funext ih]

theorem nameTaken_paint (name : String) : (w.paint id attrs).nameTaken name = w.nameTaken name := by
  have hsize : (w.paint id attrs).subgraphs.size = w.subgraphs.size := Array.size_modify
  have hfind (s : SubgraphId) :
      (w.paint id attrs).findInSubgraph s name = w.findInSubgraph s name := by
    rw [findInSubgraph, hsize, findWithin_paint, findInSubgraph]
  have hambient : (w.paint id attrs).ambient = w.ambient := rfl
  rw [nameTaken, nameTaken, hambient]
  split
  · rfl
  · rw [hfind]
  · rfl

theorem claimName_paint (name : String) :
    (w.paint id attrs).claimName name = (w.claimName name).paint id attrs := by
  have hambient : (w.paint id attrs).ambient = w.ambient := rfl
  rw [claimName, claimName, hambient]
  split <;> rfl

theorem listNode_paint (node : NodeId) (name : String) :
    (w.paint id attrs).listNode node name = (w.listNode node name).paint id attrs := by
  have hambient : (w.paint id attrs).ambient = w.ambient := rfl
  rw [listNode, listNode, hambient]
  split
  · exact w.modifySubgraph_paint id attrs _ fun _ => rfl
  · rfl
  · rfl

theorem listSubgraph_paint (s : SubgraphId) :
    (w.paint id attrs).listSubgraph s = (w.listSubgraph s).paint id attrs := by
  have hambient : (w.paint id attrs).ambient = w.ambient := rfl
  rw [listSubgraph, listSubgraph, hambient]
  split
  · exact w.modifySubgraph_paint id attrs _ fun _ => rfl
  · rfl
  · rfl

theorem takeName_paint (name : Option String) : (w.paint id attrs).takeName name =
    ((w.takeName name).1, (w.takeName name).2.paint id attrs) := by
  cases name <;> rfl

theorem buildNode_paint (spec : NodeSpec) : (w.paint id attrs).buildNode spec =
    ((w.buildNode spec).1, (w.buildNode spec).2.paint id attrs) := by
  rw [buildNode, buildNode]
  cases spec.directAttrs with
  | error e => rfl
  | ok direct =>
    dsimp only
    rw [takeName_paint, nameTaken_paint]
    by_cases ht : (w.takeName spec.name).2.nameTaken (w.takeName spec.name).1 = true
    · rw [if_pos ht, if_pos ht]
    · rw [if_neg ht, if_neg ht]
      refine Prod.ext rfl ?_
      dsimp only
      rw [← listNode_paint, ← claimName_paint]
      rfl

theorem themeOf_paint (o : Opening) : o.themeOf (w.paint id attrs) = o.themeOf w := by
  cases o with
  | subgraph s =>
    rw [Opening.themeOf, Opening.themeOf, subgraph?_paint]
    by_cases hs : s = id
    · rw [if_pos hs, hs]
      cases w.subgraph? id <;> rfl
    · rw [if_neg hs]
  | _ => rfl

theorem opened_paint (o : Opening) : (w.paint id attrs).opened o = w.opened o := by
  rw [opened, opened, themeOf_paint]
  rfl

theorem held_paint (o : Opening) : o.held (w.paint id attrs) = o.held w := by
  rw [Opening.held, Opening.held, themeOf_paint]
  rfl

theorem leave_paint (scope : Scope) :
    ((w.paint id attrs).leave scope).2 = (w.leave scope).2.paint id attrs := by
  unfold leave
  cases scope.theme <;> rfl

theorem size_subgraphs_buildNode (spec : NodeSpec) :
    (w.buildNode spec).2.subgraphs.size = w.subgraphs.size := by
  have hlist (w : Workspace) (node : NodeId) (name : String) :
      (w.listNode node name).subgraphs.size = w.subgraphs.size := by
    unfold listNode
    split <;> simp [modifySubgraph, modifyGraph]
  have hclaim (w : Workspace) (name : String) : (w.claimName name).subgraphs = w.subgraphs := by
    unfold claimName
    split <;> rfl
  have htake : (w.takeName spec.name).2.subgraphs = w.subgraphs := by
    cases spec.name <;> rfl
  unfold buildNode
  cases spec.directAttrs with
  | error e => rfl
  | ok direct =>
    dsimp only
    split
    · rw [htake]
    · rw [hlist, hclaim, htake]

end

end Workspace

namespace Template

/-- The template with other attributes for its wrapper. -/
def repainted (entries : List (String × AttrValue)) (t : Template) : Template :=
  { t with wrapperAttrs := entries }

variable (t : Template) (w : Workspace) (id : SubgraphId) (attrs : AttrSet)

theorem buildNodes_paint (factories : List Factory) (nodes : Keyed NodeId) :
    buildNodes factories nodes (w.paint id attrs) =
      ((buildNodes factories nodes w).1, (buildNodes factories nodes w).2.paint id attrs) := by
  induction factories generalizing nodes w with
  | nil => rfl
  | cons f rest ih =>
    rw [buildNodes, buildNodes, Workspace.buildNode_paint]
    rcases w.buildNode (f.specify (.named f.name)) with ⟨outcome, next⟩
    cases outcome with
    | error e => rfl
    | ok node => exact ih next (nodes.insert f.name node)

variable (name : String) (entries : List (String × AttrValue))

theorem buildSubgraph_repainted :
    (w.buildSubgraph ((t.repainted entries).wrapperSpec name)).2 =
      (w.buildSubgraph (t.wrapperSpec name)).2.paint ⟨w.subgraphs.size⟩ (.ofList entries) := by
  let made (attrs : AttrSet) : Subgraph :=
    ⟨clusterName name, true, none, Keyed.empty.merge attrs, .empty, [], []⟩
  let pushed (attrs : AttrSet) : Workspace :=
    { w with subgraphs := w.subgraphs.push (made attrs) }
  have hpushed : pushed (.ofList entries) =
      (pushed (.ofList t.wrapperAttrs)).paint ⟨w.subgraphs.size⟩ (.ofList entries) := by
    have hsubgraphs : w.subgraphs.push (made (.ofList entries)) =
        (w.subgraphs.push (made (.ofList t.wrapperAttrs))).modify w.subgraphs.size
          fun s => { s with attrs := .ofList entries } := by
      apply Array.ext_getElem?
      intro i
      rw [Array.getElem?_modify, Array.getElem?_push, Array.getElem?_push]
      by_cases hi : i = w.subgraphs.size
      · rw [if_pos hi, if_pos hi, if_pos hi.symm, Option.map_some]
        simp only [made, Keyed.empty_merge]
      · rw [if_neg hi, if_neg hi, if_neg (Ne.symm hi)]
    simp only [pushed, hsubgraphs]
    rfl
  exact (congrArg (Workspace.listSubgraph ⟨w.subgraphs.size⟩) hpushed).trans
    (Workspace.listSubgraph_paint _ _ _ _)

theorem wrapped_repainted : (t.repainted entries).wrapped name w =
    (t.wrapped name w).paint ⟨w.subgraphs.size⟩ (.ofList entries) := by
  simp only [wrapped, buildSubgraph_repainted, Workspace.opened_paint]
  rfl

theorem size_subgraphs_buildNodes (factories : List Factory) (nodes : Keyed NodeId) :
    (buildNodes factories nodes w).2.subgraphs.size = w.subgraphs.size := by
  induction factories generalizing nodes w with
  | nil => rfl
  | cons f rest ih =>
    have hsize := w.size_subgraphs_buildNode (f.specify (.named f.name))
    rw [buildNodes]
    generalize w.buildNode (f.specify (.named f.name)) = result at hsize ⊢
    obtain ⟨outcome, next⟩ := result
    cases outcome with
    | error e => exact hsize
    | ok node => exact (ih next _).trans hsize

/-- The attributes of the wrapper show in the wrapper, and nowhere else. -/
theorem build_repainted : (t.repainted entries).build w =
    ((t.build w).1, (t.build w).2.paint ⟨w.subgraphs.size⟩ (.ofList entries)) := by
  cases hclash : firstClash w [] t.names with
  | some name =>
    have hclash' : firstClash w [] (t.repainted entries).names = some name := hclash
    rw [build_of_clash hclash, build_of_clash hclash']
    -- There is no subgraph to be painted, here and where the template has no wrapper.
    exact Prod.ext rfl (w.paint_of_size_le _ _ (Nat.le_refl _)).symm
  | none =>
    have hclash' : firstClash w [] (t.repainted entries).names = none := hclash
    cases hwrapper : t.wrapper with
    | none =>
      have hwrapper' : (t.repainted entries).wrapper = none := hwrapper
      rw [build_of_bare hclash hwrapper, build_of_bare hclash' hwrapper']
      refine Prod.ext rfl (Workspace.paint_of_size_le _ _ _ ?_).symm
      exact Nat.le_of_eq (size_subgraphs_buildNodes _ _ _)
    | some name =>
      have hwrapper' : (t.repainted entries).wrapper = some name := hwrapper
      have hfactories : (t.repainted entries).factories = t.factories := rfl
      rw [build_of_wrapper hclash hwrapper, build_of_wrapper hclash' hwrapper', hfactories,
        wrapped_repainted, buildSubgraph_repainted, buildNodes_paint, Workspace.held_paint,
        Workspace.leave_paint]

theorem extend_assoc (a b c : Template) : (a.extend b).extend c = a.extend (b.extend c) := by
  simp only [extend, List.append_assoc, Option.or_assoc]

theorem extend_empty (a : Template) : a.extend empty = a := by
  simp only [extend, empty, List.nil_append, Option.or_none]

/-- The wrapper is taken over, but not its attributes. -/
theorem empty_extend (a : Template) : empty.extend a = a.repainted [] := by
  simp only [extend, empty, repainted, List.append_nil, Option.none_or]

theorem attrs_build {t : Template} {w : Workspace} {name : String}
    (hclash : firstClash w [] t.names = none) (hwrapper : t.wrapper = some name) :
    ((t.build w).2.subgraph? ⟨w.subgraphs.size⟩).map Subgraph.attrs =
      some (.ofList t.wrapperAttrs) := by
  obtain ⟨s, hs, hheading⟩ := Option.map_eq_some_iff.mp (heading_build hclash hwrapper)
  rw [hs, Option.map_some]
  exact congrArg (fun heading => some heading.2.2.2) hheading

theorem build_empty_extend_iff (w : Workspace) (a : Template) :
    (empty.extend a).build w = a.build w ↔
      firstClash w [] a.names ≠ none ∨ a.wrapper = none ∨ a.wrapperAttrs = [] := by
  rw [empty_extend]
  constructor
  · intro hsame
    by_contra hnot
    simp only [not_or, not_not] at hnot
    obtain ⟨hclash, hwrapper, hattrs⟩ := hnot
    obtain ⟨name, hname⟩ := Option.ne_none_iff_exists'.mp hwrapper
    -- Both outcomes have the wrapper, and agree on its attributes only if there are none.
    have hbare := attrs_build (t := a.repainted []) hclash hname
    rw [hsame, attrs_build hclash hname] at hbare
    exact hattrs (Keyed.eq_nil_of_ofList (Option.some.inj hbare))
  · rintro (hclash | hwrapper | hattrs)
    · obtain ⟨name, hname⟩ := Option.ne_none_iff_exists'.mp hclash
      rw [build_of_clash hname, build_of_clash (t := a.repainted []) hname]
    · cases hclash : firstClash w [] a.names with
      | some name => rw [build_of_clash hclash, build_of_clash (t := a.repainted []) hclash]
      | none =>
        rw [build_of_bare hclash hwrapper, build_of_bare (t := a.repainted []) hclash hwrapper]
        rfl
    · rw [repainted, ← hattrs]

/-- Extensions may be grouped in any way, and an empty base adds nothing. The empty template
builds what its base does, except that the wrapper has none of its attributes. -/
theorem extension_composes (w : Workspace) (a b c : Template) :
    ((a.extend b).extend c).build w = (a.extend (b.extend c)).build w ∧
      (a.extend empty).build w = a.build w ∧
      ((empty.extend a).build w).1 = (a.build w).1 ∧
      ((empty.extend a).build w).2 = (a.build w).2.paint ⟨w.subgraphs.size⟩ .empty ∧
      ((empty.extend a).build w = a.build w ↔
        firstClash w [] a.names ≠ none ∨ a.wrapper = none ∨ a.wrapperAttrs = []) := by
  have hbuild : (empty.extend a).build w =
      ((a.build w).1, (a.build w).2.paint ⟨w.subgraphs.size⟩ .empty) := by
    rw [empty_extend]
    exact a.build_repainted w []
  refine ⟨?_, ?_, by rw [hbuild], by rw [hbuild], build_empty_extend_iff w a⟩
  · rw [extend_assoc]
  · rw [extend_empty]

def crimson : Template :=
  ((empty.plain "n").inSubgraph (some "svc")).subgraphAttr "color" (.text "red")

/-- Both have the same nodes in a wrapper of the same name, but one of these is not red. -/
theorem crimson_faded :
    Session.Reachable Session.divided ∧
      ((empty.extend crimson).build Session.divided.workspace).1 =
        .ok ⟨.ofList [("n", ⟨0⟩)], some ⟨1⟩⟩ ∧
      (crimson.build Session.divided.workspace).1 = .ok ⟨.ofList [("n", ⟨0⟩)], some ⟨1⟩⟩ ∧
      (((empty.extend crimson).build Session.divided.workspace).2.subgraph? ⟨1⟩).map
        Subgraph.heading = some (true, "cluster_svc", none, .empty) ∧
      ((crimson.build Session.divided.workspace).2.subgraph? ⟨1⟩).map Subgraph.heading =
        some (true, "cluster_svc", none, .ofList [("color", .text "red")]) ∧
      ((empty.extend crimson).build Session.divided.workspace).2.dot? ⟨0⟩ ≠
        (crimson.build Session.divided.workspace).2.dot? ⟨0⟩ := by
  refine ⟨Session.Orderly.reachable Session.divided_orderly, rfl, rfl, rfl, rfl, ?_⟩
  decide

end Template

end DotDiagram
