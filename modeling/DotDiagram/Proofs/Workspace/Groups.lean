import DotDiagram.Proofs.Text.Following
import DotDiagram.Proofs.Workspace.Admission

/-! Groups. A group can be built just when the names of its template differ and none of them
is in use where it is built, though its nodes may be made in a wrapper that opens for them.
Then it has a node for each name, in order, and the wrapper, or else the receiver, lists them. -/

namespace DotDiagram

theorem Keyed.toList_eq_zip {α : Type} (m : Keyed α) : m.toList = m.keys.zip m.values :=
  List.zip_of_prod rfl rfl

theorem isSome_after?_iff {word cs : List Char} : (after? word cs).isSome = true ↔ word <+: cs := by
  constructor
  · intro h
    obtain ⟨rest, hrest⟩ := Option.isSome_iff_exists.mp h
    exact ⟨rest, (eq_of_after? hrest).symm⟩
  · rintro ⟨rest, rfl⟩
    rw [after?_append]
    rfl

/-- The prefix is put in front of a name unless it is there. -/
theorem clusterName_eq (name : String) :
    clusterName name = if "cluster_".toList <+: name.toList then name else "cluster_" ++ name := by
  by_cases hprefix : "cluster_".toList <+: name.toList
  · rw [if_pos hprefix]
    exact if_pos (isSome_after?_iff.mpr hprefix)
  · rw [if_neg hprefix]
    exact if_neg fun h => hprefix (isSome_after?_iff.mp h)

theorem prefix_clusterName (name : String) : "cluster_".toList <+: (clusterName name).toList := by
  rw [clusterName_eq]
  split
  · assumption
  · rw [String.toList_append]
    exact List.prefix_append _ _

theorem map_getElem?_nodesFrom {α : Type} (xs ys : List α) :
    (nodesFrom xs.length ys.length).map (fun id => (xs ++ ys)[id.index]?) = ys.map some := by
  induction ys generalizing xs with
  | nil => rfl
  | cons y rest ih =>
    have hrest := ih (xs ++ [y])
    rw [List.length_append, List.append_assoc] at hrest
    rw [List.length_cons, nodesFrom_succ, List.map_cons, List.map_cons]
    exact congrArg₂ _ (by simp) hrest

namespace Workspace

/-- All subgraphs say of themselves what they said. -/
def KeepsHeadings (w w' : Workspace) : Prop :=
  ∀ id heading, (w.subgraph? id).map Subgraph.heading = some heading →
    (w'.subgraph? id).map Subgraph.heading = some heading

namespace KeepsHeadings

theorem of_subgraphs {w w' : Workspace} (h : w'.subgraphs = w.subgraphs) : KeepsHeadings w w' := by
  intro id heading hs
  rwa [subgraph?, h]

theorem modifySubgraph (w : Workspace) (id : SubgraphId) {f : Subgraph → Subgraph}
    (hf : ∀ s, (f s).heading = s.heading) : KeepsHeadings w (w.modifySubgraph id f) :=
  fun s _ hs => (map_getElem?_modify w.subgraphs id.index s.index hf).trans hs

theorem pushSubgraph (w : Workspace) (s : Subgraph) :
    KeepsHeadings w { w with subgraphs := w.subgraphs.push s } :=
  fun _ _ hs => map_getElem?_push w.subgraphs s hs

theorem respected : Respected KeepsHeadings where
  trans h h' id heading hs := h' id heading (h id heading hs)
  same _ _ hs _ := .of_subgraphs hs
  graph _ _ _ _ := .of_subgraphs rfl
  subgraph w id _ hf := .modifySubgraph w id hf
  pushNode _ _ := .of_subgraphs rfl
  pushEdge _ _ := .of_subgraphs rfl
  pushSubgraph := pushSubgraph
  pushGraph _ _ := .of_subgraphs rfl

end KeepsHeadings

end Workspace

namespace Template

variable {t : Template} {w : Workspace} {entries : List Entered} {name : String}

theorem heading_wrapped (t : Template) (name : String) (w : Workspace) :
    ((t.wrapped name w).subgraph? ⟨w.subgraphs.size⟩).map Subgraph.heading =
      some (true, clusterName name, none, .ofList t.wrapperAttrs) := by
  let made : Subgraph :=
    ⟨clusterName name, true, none, Keyed.empty.merge (.ofList t.wrapperAttrs), .empty, [], []⟩
  let pushed := { w with subgraphs := w.subgraphs.push made }
  have hmade : (pushed.subgraph? ⟨w.subgraphs.size⟩).map Subgraph.heading =
      some (true, clusterName name, none, .ofList t.wrapperAttrs) := by
    have hlast : pushed.subgraph? ⟨w.subgraphs.size⟩ = some made := Array.getElem?_push_size
    have hattrs : made.attrs = .ofList t.wrapperAttrs := Keyed.empty_merge _
    rw [hlast, Option.map_some, Subgraph.heading, hattrs]
  exact Workspace.KeepsHeadings.respected.weakly.listSubgraph pushed _ _ _ hmade

theorem heading_build (hclash : firstClash w [] t.names = none) (hwrapper : t.wrapper = some name) :
    ((t.build w).2.subgraph? ⟨w.subgraphs.size⟩).map Subgraph.heading =
      some (true, clusterName name, none, .ofList t.wrapperAttrs) := by
  have hkeeps : (t.wrapped name w).KeepsHeadings (t.build w).2 := by
    have hd := Workspace.drawing_buildNodes (t.wrapped name w) t.factories .empty
    rw [build_of_wrapper hclash hwrapper]
    exact Workspace.KeepsHeadings.respected.trans (Workspace.KeepsHeadings.respected.drawing hd)
      (Workspace.KeepsHeadings.respected.weakly.leave _ _)
  exact hkeeps _ _ (t.heading_wrapped name w)

section

variable (h : w.Tended entries) (hsound : ∀ f ∈ t.factories, f.Sound)
  (hclash : firstClash w [] t.names = none)
include h

theorem wellFormed_ground : (t.ground w).WellFormed := by
  unfold ground
  split
  · exact h.wellFormed
  · exact h.wellFormed.addSubgraph h.receiver_known

theorem has_home : ∀ c, t.home w = some c → (t.ground w).Has c := by
  unfold home ground
  split
  · exact h.receiver_known
  · rintro _ ⟨⟩
    exact Nat.lt_succ_self _

include hsound hclash

theorem listed_build {id : NodeId} (hid : id ∈ (t.roster w).values) (c : Container) :
    id ∈ ((t.build w).2.layout.contents c).nodes ↔ t.home w = some c := by
  have hnodup := (firstClash_eq_none_iff.mp hclash).1
  have hlength : (t.ground w).nodes.length = w.nodes.size := by
    rw [← w.length_nodes_layout, ground]
    split <;> rfl
  rw [values_roster hnodup] at hid
  rw [(build_of_sound h hsound hclash).2]
  constructor
  · intro hlisted
    by_contra hne
    -- Any other container lists what it did before, and the node is new.
    rw [Layout.contents_addNodes_of_ne hne] at hlisted
    have hlt := (wellFormed_ground h).node_known hlisted
    rw [hlength] at hlt
    exact Nat.not_lt_of_le (le_index_of_mem_nodesFrom hid) hlt
  · intro hhome
    rw [← hlength] at hid
    exact Layout.new_mem_contents_addNodes (wellFormed_ground h) (has_home h) hnodup hhome id hid

theorem map_name_roster :
    (t.roster w).values.map (fun id => ((t.build w).2.node? id).map Node.name) =
      t.names.map some := by
  have hnodup := (firstClash_eq_none_iff.mp hclash).1
  have hlength : (t.ground w).nodes = w.layout.nodes := by
    unfold ground
    split <;> rfl
  have hall := map_getElem?_nodesFrom w.layout.nodes (t.names.map (·, (t.home w).isSome))
  rw [List.length_map, w.length_nodes_layout] at hall
  have hname : ∀ id : NodeId, ((t.build w).2.node? id).map Node.name =
      ((w.layout.nodes ++ t.names.map (·, (t.home w).isSome))[id.index]?).map Prod.fst := by
    intro id
    rw [← hlength, ← Layout.nodes_addNodes, ← (build_of_sound h hsound hclash).2,
      Workspace.nodes_getElem?_layout, Option.map_map]
    rfl
  have hmapped := congrArg (List.map (Option.map Prod.fst)) hall
  simpa [values_roster hnodup, hname, Function.comp_def] using hmapped

theorem subgraph?_build (hwrapper : t.wrapper = some name) :
    ∃ s, (t.build w).2.subgraph? ⟨w.subgraphs.size⟩ = some s ∧
      s.heading = (true, clusterName name, none, .ofList t.wrapperAttrs) ∧
      s.nodes = t.roster w := by
  have hnodup := (firstClash_eq_none_iff.mp hclash).1
  obtain ⟨s, hs, hheading⟩ := Option.map_eq_some_iff.mp (heading_build hclash hwrapper)
  have hempty := h.contents_addSubgraph_new
  have hkeys : (w.layout.addSubgraph w.ambient.receiver?).keys (.subgraph ⟨w.subgraphs.size⟩) =
      [] := by
    rw [(h.wellFormed.addSubgraph h.receiver_known).named, hempty]
    rfl
  have hl := (build_of_sound h hsound hclash).2
  rw [home, ground, hwrapper] at hl
  -- The wrapper is empty when the first node comes, so none takes the place of another.
  have hfresh : ∀ name ∈ t.names, name ∉
      (w.layout.addSubgraph w.ambient.receiver?).keys (.subgraph ⟨w.subgraphs.size⟩) :=
    fun _ _ => hkeys ▸ List.not_mem_nil
  obtain ⟨hk, hn⟩ := Layout.addNodes_of_fresh w.ambient.graph? hnodup hfresh
  rw [← hl, hkeys, List.nil_append] at hk
  rw [← hl, hempty] at hn
  refine ⟨s, hs, hheading, Keyed.ext ?_⟩
  have hskeys : s.nodes.keys = t.names := by
    simpa [Workspace.layout, hs] using hk
  have hsvalues : s.nodes.values = nodesFrom w.nodes.size t.names.length := by
    have hlength : (w.layout.addSubgraph w.ambient.receiver?).nodes.length = w.nodes.size :=
      w.length_nodes_layout
    rw [hlength] at hn
    simpa [Workspace.layout, hs, Subgraph.contents, Contents.empty] using hn
  rw [Keyed.toList_eq_zip, hskeys, hsvalues, toList_roster hnodup]

end

/-- What a group has that was built from the template in `w`, with `w'` to follow. -/
structure Realized (t : Template) (w w' : Workspace) (receiver : Option Container)
    (group : Group) : Prop where
  /-- There is one node for each name, in order. -/
  keys : group.nodes.keys = t.names
  names : group.nodes.values.map (fun id => (w'.node? id).map Node.name) = t.names.map some
  new : ∀ id ∈ group.nodes.values, w.node? id = none
  found : ∀ name ∈ t.names, ∃ id ∈ group.nodes.values,
    group.get? w' name = some id ∧ w'.nodeName id = name
  wrapped : ∀ name, t.wrapper = some name → ∃ id s, group.wrapper = some id ∧
    w.subgraph? id = none ∧ w'.subgraph? id = some s ∧
    s.heading = (true, s.name, none, .ofList t.wrapperAttrs) ∧
    s.name = (if "cluster_".toList <+: name.toList then name else "cluster_" ++ name) ∧
    "cluster_".toList <+: s.name.toList ∧ s.nodes = group.nodes
  bare : t.wrapper = none → group.wrapper = none
  listed : ∀ id ∈ group.nodes.values, ∀ c,
    id ∈ (w'.layout.contents c).nodes ↔ (group.wrapper.map .subgraph).or receiver = some c

theorem realized_of_sound (h : w.Tended entries) (hsound : ∀ f ∈ t.factories, f.Sound)
    (hclash : firstClash w [] t.names = none) :
    t.Realized w (t.build w).2 w.ambient.receiver?
      ⟨t.roster w, t.wrapper.map fun _ => ⟨w.subgraphs.size⟩⟩ := by
  have hnodup := (firstClash_eq_none_iff.mp hclash).1
  have hkeys := keys_roster hnodup w
  have hnames := map_name_roster h hsound hclash
  refine ⟨hkeys, hnames, fun id hid => ?_, fun name hname => ?_, fun name hwrapper => ?_, ?_, ?_⟩
  · rw [values_roster hnodup] at hid
    exact Array.getElem?_eq_none (le_index_of_mem_nodesFrom hid)
  · have hread : (t.roster w).keys =
        (t.roster w).values.map fun id => (((t.build w).2.node? id).map Node.name).getD "" := by
      have hall := congrArg (List.map (Option.getD · "")) hnames
      rw [hkeys]
      simpa [Function.comp_def] using hall.symm
    obtain ⟨id, hid⟩ := Keyed.mem_keys_iff_exists.mp (hkeys ▸ hname)
    obtain ⟨hvalue, hnamed⟩ := Keyed.mem_values_of_get? hread hid
    exact ⟨id, hvalue, by rw [Group.get?, hid, Option.some_or], hnamed⟩
  · obtain ⟨s, hs, hheading, hnodes⟩ := subgraph?_build h hsound hclash hwrapper
    have hname : s.name = clusterName name := congrArg (·.2.1) hheading
    have hnew : w.subgraph? ⟨w.subgraphs.size⟩ = none := Array.getElem?_eq_none (Nat.le_refl _)
    refine ⟨⟨w.subgraphs.size⟩, s, ?_, hnew, hs, hname ▸ hheading, ?_, ?_, hnodes⟩
    · rw [hwrapper]
      rfl
    · rw [hname, clusterName_eq]
    · rw [hname]
      exact prefix_clusterName name
  · intro hwrapper
    rw [hwrapper]
    rfl
  · intro id hid c
    rw [listed_build h hsound hclash hid c, home]
    cases t.wrapper <;> rfl

end Template

namespace Session

variable {s : Session} {t : Template}

/-- The names are checked before the wrapper is made, and that check says exactly whether the
group can be built. -/
theorem group_built (hs : Reachable s) (hsound : ∀ f ∈ t.factories, f.Sound) :
    ((∃ group, (t.build s.workspace).1 = .ok group) ↔
        t.names.Nodup ∧ ∀ name ∈ t.names, ¬ s.workspace.InUse name) ∧
      (∀ group, (t.build s.workspace).1 = .ok group →
        t.Realized s.workspace (t.build s.workspace).2 (innermost? (openContainers s.entries))
          group) ∧
      ∀ base : Template, (t.extend base).names = base.names ++ t.names := by
  have ht := tended_of_reachable hs
  have hfree : Template.firstClash s.workspace [] t.names = none ↔
      t.names.Nodup ∧ ∀ name ∈ t.names, ¬ s.workspace.InUse name := by
    simp only [Template.firstClash_eq_none_iff, ← Workspace.nameTaken_iff_inUse ht.wellFormed,
      List.not_mem_nil, not_false_eq_true, true_and, Bool.not_eq_true]
  have hunclashed : ∀ {group}, (t.build s.workspace).1 = .ok group →
      Template.firstClash s.workspace [] t.names = none := by
    intro group hok
    cases hclash : Template.firstClash s.workspace [] t.names with
    | none => rfl
    | some name => cases (congrArg Prod.fst (Template.build_of_clash hclash)).symm.trans hok
  refine ⟨?_, fun group hok => ?_, fun base => List.map_append⟩
  · rw [← hfree]
    constructor
    · rintro ⟨group, hok⟩
      exact hunclashed hok
    · exact fun hclash => ⟨_, (Template.build_of_sound ht hsound hclash).1⟩
  · have hclash := hunclashed hok
    cases (Template.build_of_sound ht hsound hclash).1.symm.trans hok
    rw [← ht.holds.receiver?_eq]
    exact Template.realized_of_sound ht hsound hclash

/-- It is extended by a base, and has a wrapper of its own. -/
def service : Template :=
  ((Template.empty.plain "c").inSubgraph (some "svc")).extend (Template.empty.plain "b")

/-- The name "a" is in use where the group is built, though not in the wrapper. -/
theorem occupied_group :
    Reachable occupied ∧ (∀ f ∈ (service.plain "a").factories, f.Sound) ∧
      (service.build occupied.workspace).1 = .ok ⟨.ofList [("b", ⟨1⟩), ("c", ⟨2⟩)], some ⟨1⟩⟩ ∧
      service.Realized occupied.workspace (service.build occupied.workspace).2
        (some (.subgraph ⟨0⟩)) ⟨.ofList [("b", ⟨1⟩), ("c", ⟨2⟩)], some ⟨1⟩⟩ ∧
      ((service.build occupied.workspace).2.subgraph? ⟨1⟩).map Subgraph.name =
        some "cluster_svc" ∧
      occupied.workspace.InUse "a" ∧
      ¬ ∃ group, ((service.plain "a").build occupied.workspace).1 = .ok group := by
  have hs : Reachable occupied := detached_reachable.tail (.operation _ trivial)
  have hsound : ∀ f ∈ (service.plain "a").factories, f.Sound := by
    intro f hf
    have hlisted : f ∈ [⟨"b", id⟩, ⟨"c", id⟩, ⟨"a", id⟩] := hf
    simp only [List.mem_cons, List.not_mem_nil, or_false] at hlisted
    rcases hlisted with rfl | rfl | rfl <;> exact ⟨rfl, .inl rfl⟩
  have hused : occupied.workspace.InUse "a" :=
    (Workspace.nameTaken_iff_inUse (tended_of_reachable hs).wellFormed "a").mp rfl
  have hok : (service.build occupied.workspace).1 =
    .ok ⟨.ofList [("b", ⟨1⟩), ("c", ⟨2⟩)], some ⟨1⟩⟩ := rfl
  have hrealized := (group_built hs fun f hf => hsound f (List.mem_append_left _ hf)).2.1 _ hok
  refine ⟨hs, hsound, hok, hrealized, ?_, hused, ?_⟩
  · obtain ⟨id, s, hid, -, hmade, -, hname, -⟩ := hrealized.wrapped "svc" rfl
    cases hid
    rw [hmade, Option.map_some, hname, if_neg (by decide)]
    rfl
  · rw [(group_built hs hsound).1]
    exact fun h => h.2 "a" (by decide) hused

end Session

end DotDiagram
