import DotDiagram.Proofs.Regrouping
import DotDiagram.Proofs.Workspace.Isolation

/-! Registration of groups. The names of a template are checked where the group is built, but
its nodes are made in the wrapper, if there is one. A name that is free out there is free in
the wrapper, and each node takes its own name and no other. So factories that keep their names
and give one text for the label make all the nodes once the names have been checked. -/

namespace DotDiagram

/-- Started with its name, the factory keeps it and gives at most one text for the label. -/
def Factory.Sound (f : Factory) : Prop :=
  (f.specify (.named f.name)).name = some f.name ∧
    ((f.specify (.named f.name)).html = none ∨ (f.specify (.named f.name)).markdown = none)

/-- The handles of the nodes that are made one after another. -/
def nodesFrom (start count : Nat) : List NodeId := (List.range' start count).map NodeId.mk

theorem nodesFrom_succ (start count : Nat) :
    nodesFrom start (count + 1) = ⟨start⟩ :: nodesFrom (start + 1) count := by
  rw [nodesFrom, List.range'_succ, List.map_cons, nodesFrom]

theorem length_nodesFrom (start count : Nat) : (nodesFrom start count).length = count := by
  rw [nodesFrom, List.length_map, List.length_range']

theorem le_index_of_mem_nodesFrom {start count : Nat} {id : NodeId}
    (h : id ∈ nodesFrom start count) : start ≤ id.index := by
  obtain ⟨i, hi, rfl⟩ := List.mem_map.mp h
  exact (List.mem_range'_1.mp hi).1

/-- The nodes of a group that is built now, by their names in the template. -/
def Template.roster (t : Template) (w : Workspace) : Keyed NodeId :=
  .ofList (t.names.zip (nodesFrom w.nodes.size t.names.length))

theorem Keyed.toList_ofList {α : Type} {entries : List (String × α)} (h : (keysOf entries).Nodup) :
    (ofList entries).toList = entries :=
  congrArg toList (empty_merge ⟨entries, h⟩)

namespace Template

variable {t : Template} (h : t.names.Nodup) (w : Workspace)
include h

theorem toList_roster :
    (t.roster w).toList = t.names.zip (nodesFrom w.nodes.size t.names.length) := by
  apply Keyed.toList_ofList
  rwa [keysOf, List.map_fst_zip (Nat.le_of_eq (length_nodesFrom _ _).symm)]

theorem keys_roster : (t.roster w).keys = t.names := by
  rw [Keyed.keys, toList_roster h, keysOf,
    List.map_fst_zip (Nat.le_of_eq (length_nodesFrom _ _).symm)]

theorem values_roster : (t.roster w).values = nodesFrom w.nodes.size t.names.length := by
  rw [Keyed.values, toList_roster h, List.map_snd_zip (Nat.le_of_eq (length_nodesFrom _ _))]

end Template

namespace Layout

variable {receiver : Option Container} {current : Option GraphId} {l : Layout} {c : Container}
  {s : SubgraphId} {keys names : List String} {name : String} {id n : NodeId}
  {nodes : List NodeId}

def addNodes (receiver : Option Container) (current : Option GraphId) (names : List String)
    (l : Layout) : Layout :=
  names.foldl (fun l name => l.addNode receiver current name) l

theorem addNodes_cons (l : Layout) (name : String) (names : List String) :
    l.addNodes receiver current (name :: names) =
      (l.addNode receiver current name).addNodes receiver current names := rfl

theorem mem_or_eq_of_mem_place (h : n ∈ place keys name id nodes) : n ∈ nodes ∨ n = id := by
  obtain ⟨i, hi⟩ := List.mem_iff_getElem?.mp h
  rcases getElem?_place hi with hi | ⟨rfl, -⟩
  · exact .inl (List.mem_of_getElem? hi)
  · exact .inr rfl

theorem mem_place_of_ne {f : NodeId → String} (hf : keys = nodes.map f) (hn : n ∈ nodes)
    (hne : f n ≠ name) : n ∈ place keys name id nodes := by
  by_cases hk : name ∈ keys
  · obtain ⟨i, hi⟩ := List.mem_iff_getElem?.mp hn
    have hat : keys.idxOf name ≠ i := by
      intro heq
      have hname : keys[i]? = some name := by
        rw [← heq]
        exact List.getElem?_idxOf hk
      rw [hf, List.getElem?_map, hi] at hname
      exact hne (Option.some.inj hname)
    rw [place_of_mem id nodes hk]
    exact List.mem_iff_getElem?.mpr ⟨i, by rw [List.getElem?_set, if_neg hat, hi]⟩
  · rw [place_of_not_mem id nodes hk]
    exact List.mem_append_left _ hn

theorem nodes_addNodes (l : Layout) (names : List String) :
    (l.addNodes receiver current names).nodes = l.nodes ++ names.map (·, receiver.isSome) := by
  induction names generalizing l with
  | nil => exact (List.append_nil _).symm
  | cons name rest ih => rw [addNodes_cons, ih, nodes_addNode, List.append_assoc]; rfl

theorem contents_addNodes_of_ne (hc : receiver ≠ some c) (l : Layout) (names : List String) :
    (l.addNodes receiver current names).contents c = l.contents c := by
  induction names generalizing l with
  | nil => rfl
  | cons name rest ih => rw [addNodes_cons, ih, contents_addNode, if_neg hc]

/-- Where none of the names is a key, the nodes go to the end. -/
theorem addNodes_of_fresh (current : Option GraphId) (hnodup : names.Nodup)
    (hfresh : ∀ name ∈ names, name ∉ l.keys (.subgraph s)) :
    let l' := l.addNodes (some (.subgraph s)) current names
    l'.keys (.subgraph s) = l.keys (.subgraph s) ++ names ∧
      (l'.contents (.subgraph s)).nodes =
        (l.contents (.subgraph s)).nodes ++ nodesFrom l.nodes.length names.length := by
  induction names generalizing l with
  | nil => exact ⟨(List.append_nil _).symm, (List.append_nil _).symm⟩
  | cons name rest ih =>
    obtain ⟨hnot, hnodup⟩ := List.nodup_cons.mp hnodup
    have hname := hfresh name List.mem_cons_self
    have hkeys : (l.addNode (some (.subgraph s)) current name).keys (.subgraph s) =
        l.keys (.subgraph s) ++ [name] := by
      rw [keys_addNode, if_pos ⟨rfl, rfl, hname⟩]
    have hnodes : ((l.addNode (some (.subgraph s)) current name).contents (.subgraph s)).nodes =
        (l.contents (.subgraph s)).nodes ++ [⟨l.nodes.length⟩] := by
      rw [contents_addNode, if_pos rfl, place_of_not_mem _ _ hname]
    obtain ⟨hk, hn⟩ := ih (l := l.addNode (some (.subgraph s)) current name) hnodup fun x hx => by
      rw [hkeys, List.mem_append, List.mem_singleton, not_or]
      exact ⟨hfresh x (List.mem_cons_of_mem _ hx), fun heq => hnot (heq ▸ hx)⟩
    rw [hkeys, List.append_assoc] at hk
    rw [hnodes, nodes_addNode, List.length_append, List.append_assoc] at hn
    rw [List.length_cons, nodesFrom_succ]
    exact ⟨hk, hn⟩

section

variable (hw : l.WellFormed)
include hw

theorem mem_contents_addNode_of_ne (hn : n ∈ (l.contents c).nodes) (hne : l.nodeName n ≠ name) :
    n ∈ ((l.addNode receiver current name).contents c).nodes := by
  rw [contents_addNode]
  split
  · cases c with
    | subgraph s => exact mem_place_of_ne (hw.named s) hn hne
    | graph g =>
      rw [hw.unkeyed, place_of_not_mem _ _ List.not_mem_nil]
      exact List.mem_append_left _ hn
  · exact hn

variable (hr : ∀ c, receiver = some c → l.Has c)
include hr

theorem mem_contents_addNodes (hn : n ∈ (l.contents c).nodes) (hnot : l.nodeName n ∉ names) :
    n ∈ ((l.addNodes receiver current names).contents c).nodes := by
  induction names generalizing l with
  | nil => exact hn
  | cons name rest ih =>
    obtain ⟨hne, hnot⟩ := not_or.mp (List.mem_cons.not.mp hnot)
    apply ih (hw.addNode hr name) hr (mem_contents_addNode_of_ne hw hn hne)
    rwa [nodeName_addNode _ _ _ _ (hw.node_known hn)]

theorem new_mem_contents_addNodes (hnodup : names.Nodup) (hc : receiver = some c) :
    ∀ id ∈ nodesFrom l.nodes.length names.length,
      id ∈ ((l.addNodes receiver current names).contents c).nodes := by
  induction names generalizing l with
  | nil => nofun
  | cons name rest ih =>
    obtain ⟨hnot, hnodup⟩ := List.nodup_cons.mp hnodup
    have hw' : (l.addNode receiver current name).WellFormed := hw.addNode hr name
    have hlength : (l.addNode receiver current name).nodes.length = l.nodes.length + 1 := by
      rw [nodes_addNode, List.length_append]
      rfl
    intro id hid
    rw [List.length_cons, nodesFrom_succ, List.mem_cons] at hid
    rcases hid with rfl | hid
    · -- The first node stays, since no other one has its name.
      apply mem_contents_addNodes hw' hr
      · rw [contents_addNode, if_pos hc]
        exact self_mem_place hw c name _
      · rwa [nodeName_addNode_new]
    · rw [← hlength] at hid
      exact ih hw' hr hnodup id hid

end

end Layout

namespace Workspace

variable {w w' : Workspace} {entries : List Entered} {name x : String}

theorem nameTaken_of_subgraph {s : SubgraphId} (hw : w.layout.WellFormed)
    (hg : w.ambient.graph? = none) (hs : w.ambient.subgraph? = some s) (name : String) :
    w.nameTaken name = true ↔ ∃ c, w.layout.Within (.subgraph s) c ∧
      ∃ n ∈ (w.layout.contents c).nodes, w.layout.nodeName n = name := by
  simp only [nameTaken, hg, hs]
  constructor
  · intro h
    obtain ⟨n, hn⟩ := Option.isSome_iff_exists.mp h
    obtain ⟨hname, c, hc, hm⟩ := findWithin_sound hw hn
    exact ⟨c, hc, n, hm, hname⟩
  · rintro ⟨c, hc, n, hn, rfl⟩
    exact findWithin_isSome hw (Nat.le_add_right _ _) hc hn

theorem nameTaken_of_closed (hg : w.ambient.graph? = none) (hs : w.ambient.subgraph? = none)
    (name : String) : w.nameTaken name = false := by
  simp only [nameTaken, hg, hs]

/-- Looks have no part in which names are taken. -/
theorem nameTaken_congr (hw : w.layout.WellFormed) (ha : w'.ambient = w.ambient)
    (hl : w'.layout = w.layout) (name : String) : w'.nameTaken name = w.nameTaken name := by
  rw [Bool.eq_iff_iff]
  cases hg : w.ambient.graph? with
  | some g => rw [nameTaken_of_graph (ha ▸ hg), nameTaken_of_graph hg, hl]
  | none =>
    cases hs : w.ambient.subgraph? with
    | some s =>
      have hw' : w'.layout.WellFormed := hl.symm ▸ hw
      rw [nameTaken_of_subgraph hw' (ha ▸ hg) (ha ▸ hs), nameTaken_of_subgraph hw hg hs, hl]
    | none => rw [nameTaken_of_closed (ha ▸ hg) (ha ▸ hs), nameTaken_of_closed hg hs]

/-- A node takes no other name than its own. -/
theorem nameTaken_of_added (hw : w.layout.WellFormed) (hw' : w'.layout.WellFormed)
    (ha : w'.ambient = w.ambient)
    (hl : w'.layout = w.layout.addNode w.ambient.receiver? w.ambient.graph? name)
    (h : w'.nameTaken x = true) : w.nameTaken x = true ∨ x = name := by
  cases hg : w.ambient.graph? with
  | some g =>
    rw [nameTaken_of_graph (ha ▸ hg), hl, Layout.mem_names_addNode] at h
    rw [nameTaken_of_graph hg]
    exact h.imp_right And.left
  | none =>
    cases hs : w.ambient.subgraph? with
    | none =>
      rw [nameTaken_of_closed (ha ▸ hg) (ha ▸ hs)] at h
      cases h
    | some s =>
      rw [nameTaken_of_subgraph hw' (ha ▸ hg) (ha ▸ hs), hl] at h
      rw [nameTaken_of_subgraph hw hg hs]
      obtain ⟨c, hc, n, hn, hname⟩ := h
      have hin := Layout.within_addNode.mp hc
      have hcases : n ∈ (w.layout.contents c).nodes ∨ n = ⟨w.layout.nodes.length⟩ := by
        rw [Layout.contents_addNode] at hn
        split at hn
        · exact Layout.mem_or_eq_of_mem_place hn
        · exact .inl hn
      rcases hcases with hold | rfl
      · rw [Layout.nodeName_addNode _ _ _ _ (hw.node_known hold)] at hname
        exact .inl ⟨c, hin, n, hold, hname⟩
      · rw [Layout.nodeName_addNode_new] at hname
        exact .inr hname.symm

section

variable (t : Template) (name : String)

theorem Tended.wrapped (h : w.Tended entries) : (t.wrapped name w).Tended
    (entries ++ ((Opening.subgraph ⟨w.subgraphs.size⟩).held
      (w.buildSubgraph (t.wrapperSpec name)).2).entries) :=
  (h.act (.subgraph (t.wrapperSpec name))).1.opened (o := .subgraph ⟨w.subgraphs.size⟩)
    (w.hasSubgraph_buildSubgraph (t.wrapperSpec name))

theorem Tended.layout_wrapped (h : w.Tended entries) :
    (t.wrapped name w).layout = w.layout.addSubgraph w.ambient.receiver? :=
  h.anchored.layout_buildSubgraph (t.wrapperSpec name)

theorem graph?_wrapped (w : Workspace) :
    (t.wrapped name w).ambient.graph? = w.ambient.graph? :=
  ((w.buildSubgraph (t.wrapperSpec name)).2.graph?_opened
    (o := .subgraph ⟨w.subgraphs.size⟩) nofun).trans
      (congrArg Ambient.graph? (w.ambient_buildSubgraph (t.wrapperSpec name)))

theorem subgraph?_wrapped (w : Workspace) :
    (t.wrapped name w).ambient.subgraph? = some ⟨w.subgraphs.size⟩ :=
  (w.buildSubgraph (t.wrapperSpec name)).2.subgraph?_opened_subgraph _

theorem receiver?_wrapped (w : Workspace) :
    (t.wrapped name w).ambient.receiver? = some (.subgraph ⟨w.subgraphs.size⟩) :=
  (w.buildSubgraph (t.wrapperSpec name)).2.receiver?_opened_subgraph _

end

theorem Tended.contents_addSubgraph_new (h : w.Tended entries) :
    (w.layout.addSubgraph w.ambient.receiver?).contents (.subgraph ⟨w.subgraphs.size⟩) =
      .empty := by
  have hnew : ¬ w.layout.Has (.subgraph ⟨w.subgraphs.size⟩) := Nat.lt_irrefl _
  rw [Layout.contents_addSubgraph, if_neg fun hr => hnew (h.receiver_known _ hr)]
  exact h.wellFormed.blank _ hnew

/-- In a wrapper that has just been opened no name is taken but by the open graph. -/
theorem Tended.nameTaken_of_wrapped (h : w.Tended entries) {t : Template}
    (hx : (t.wrapped name w).nameTaken x = true) : w.nameTaken x = true := by
  have hl := h.layout_wrapped t name
  have hgraph := graph?_wrapped t name w
  cases hg : w.ambient.graph? with
  | some g =>
    rw [nameTaken_of_graph (hgraph.trans hg), hl] at hx
    exact (nameTaken_of_graph hg x).mpr hx
  | none =>
    rw [nameTaken_of_subgraph (h.wrapped t name).wellFormed (hgraph.trans hg)
      (subgraph?_wrapped t name w)] at hx
    obtain ⟨c, hc, n, hn, -⟩ := hx
    have hempty : (t.wrapped name w).layout.contents (.subgraph ⟨w.subgraphs.size⟩) = .empty := by
      rw [hl]
      exact h.contents_addSubgraph_new
    exact absurd hn (not_mem_of_empty hempty hc)

end Workspace

namespace Template

variable {w : Workspace} {entries : List Entered} {t : Template}

theorem firstClash_eq_none_iff {seen names : List String} :
    firstClash w seen names = none ↔
      names.Nodup ∧ ∀ name ∈ names, name ∉ seen ∧ w.nameTaken name = false := by
  induction names generalizing seen with
  | nil => simp [firstClash]
  | cons name names ih =>
    unfold firstClash
    by_cases hclash : (seen.contains name || w.nameTaken name) = true
    · rw [if_pos hclash]
      simp only [Bool.or_eq_true, List.contains_iff_mem] at hclash
      refine ⟨nofun, fun h => ?_⟩
      obtain ⟨hseen, hfree⟩ := h.2 name List.mem_cons_self
      rcases hclash with hin | htaken
      · exact absurd hin hseen
      · cases hfree.symm.trans htaken
    · rw [if_neg hclash, ih]
      simp only [Bool.not_eq_true, Bool.or_eq_false_iff] at hclash
      have hseen : name ∉ seen := by simpa using hclash.1
      constructor
      · rintro ⟨hnodup, hrest⟩
        have hnot : name ∉ names := fun hin => (hrest name hin).1 List.mem_cons_self
        refine ⟨List.nodup_cons.mpr ⟨hnot, hnodup⟩, fun x hx => ?_⟩
        rcases List.mem_cons.mp hx with rfl | hx
        · exact ⟨hseen, hclash.2⟩
        · exact ⟨fun hin => (hrest x hx).1 (List.mem_cons_of_mem _ hin), (hrest x hx).2⟩
      · rintro ⟨hnodup, hall⟩
        obtain ⟨hnot, hnodup⟩ := List.nodup_cons.mp hnodup
        have hrest : ∀ x ∈ names, x ∉ seen ∧ w.nameTaken x = false :=
          fun x hx => hall x (List.mem_cons_of_mem _ hx)
        refine ⟨hnodup, fun x hx => ⟨fun hin => ?_, (hrest x hx).2⟩⟩
        rcases List.mem_cons.mp hin with rfl | hin
        · exact hnot hx
        · exact (hrest x hx).1 hin

theorem buildNodes_cons {f : Factory} {rest : List Factory} {nodes : Keyed NodeId} {id : NodeId}
    (hok : (w.buildNode (f.specify (.named f.name))).1 = .ok id) :
    buildNodes (f :: rest) nodes w =
      buildNodes rest (nodes.insert f.name id) (w.buildNode (f.specify (.named f.name))).2 := by
  rw [buildNodes, show w.buildNode (f.specify (.named f.name)) = (.ok id, _) from Prod.ext hok rfl]

theorem buildNode_of_sound (h : w.Tended entries) {f : Factory} (hf : f.Sound)
    (hfree : w.nameTaken f.name = false) :
    (w.buildNode (f.specify (.named f.name))).1 = .ok ⟨w.nodes.size⟩ ∧
      (w.buildNode (f.specify (.named f.name))).2.layout =
        w.layout.addNode w.ambient.receiver? w.ambient.graph? f.name := by
  obtain ⟨hname, hlabel⟩ := hf
  have htake : w.takeName (f.specify (.named f.name)).name = (f.name, w) := by
    rw [hname]
    rfl
  have hok : (w.buildNode (f.specify (.named f.name))).1 = .ok ⟨w.nodes.size⟩ := by
    rw [Workspace.buildNode_fst hlabel, htake, if_neg]
    exact Bool.eq_false_iff.mp hfree
  refine ⟨hok, ?_⟩
  rcases h.anchored.layout_buildNode (f.specify (.named f.name)) with ⟨⟨e, he⟩, -⟩ | ⟨-, -, hl⟩
  · cases he.symm.trans hok
  · rw [hl, htake]

/-- Each node takes its own name and no other, so the names of the rest stay free. -/
theorem buildNodes_of_sound (h : w.Tended entries) {factories : List Factory}
    (hsound : ∀ f ∈ factories, f.Sound) (hnodup : (factories.map Factory.name).Nodup)
    (hfree : ∀ f ∈ factories, w.nameTaken f.name = false) (nodes : Keyed NodeId) :
    (buildNodes factories nodes w).1 = .ok (nodes.insertAll
        ((factories.map Factory.name).zip (nodesFrom w.nodes.size factories.length))) ∧
      (buildNodes factories nodes w).2.layout = w.layout.addNodes w.ambient.receiver?
        w.ambient.graph? (factories.map Factory.name) := by
  induction factories generalizing w nodes with
  | nil => exact ⟨rfl, rfl⟩
  | cons f rest ih =>
    obtain ⟨hnot, hnodup⟩ := List.nodup_cons.mp hnodup
    obtain ⟨hok, hadded⟩ := buildNode_of_sound h (hsound f List.mem_cons_self)
      (hfree f List.mem_cons_self)
    let next := (w.buildNode (f.specify (.named f.name))).2
    have hambient : next.ambient = w.ambient := w.ambient_buildNode _
    have hnext : next.Tended entries := (h.act (.draw (.node _))).1
    have hsize : next.nodes.size = w.nodes.size + 1 := by
      rw [← Workspace.length_nodes_layout, hadded, Layout.nodes_addNode, List.length_append,
        Workspace.length_nodes_layout]
      rfl
    -- What the induction needs of the next workspace: it takes no further name.
    have hrest : ∀ f' ∈ rest, next.nameTaken f'.name = false := by
      intro f' hf'
      rw [Bool.eq_false_iff]
      intro htaken
      rcases Workspace.nameTaken_of_added h.wellFormed hnext.wellFormed hambient hadded htaken with
        hold | heq
      · cases (hfree f' (List.mem_cons_of_mem _ hf')).symm.trans hold
      · exact hnot (heq ▸ List.mem_map_of_mem hf')
    obtain ⟨hbuilt, hl⟩ := ih hnext (fun f' hf' => hsound f' (List.mem_cons_of_mem _ hf')) hnodup
      hrest (nodes.insert f.name ⟨w.nodes.size⟩)
    rw [hsize] at hbuilt
    rw [hadded, hambient] at hl
    rw [buildNodes_cons hok, List.length_cons, nodesFrom_succ]
    exact ⟨hbuilt, hl⟩

/-- Where the nodes of the group go. -/
def home (t : Template) (w : Workspace) : Option Container :=
  match t.wrapper with
  | none => w.ambient.receiver?
  | some _ => some (.subgraph ⟨w.subgraphs.size⟩)

/-- The layout that the nodes of the group come to. -/
def ground (t : Template) (w : Workspace) : Layout :=
  match t.wrapper with
  | none => w.layout
  | some _ => w.layout.addSubgraph w.ambient.receiver?

/-- What is free where the group is built is free in the wrapper, so that nothing goes wrong
once the names have been checked. -/
theorem build_of_sound (h : w.Tended entries) (hsound : ∀ f ∈ t.factories, f.Sound)
    (hclash : firstClash w [] t.names = none) :
    (t.build w).1 = .ok ⟨t.roster w, t.wrapper.map fun _ => ⟨w.subgraphs.size⟩⟩ ∧
      (t.build w).2.layout = (t.ground w).addNodes (t.home w) w.ambient.graph? t.names := by
  obtain ⟨hnodup, hall⟩ := firstClash_eq_none_iff.mp hclash
  have hfree : ∀ f ∈ t.factories, w.nameTaken f.name = false :=
    fun f hf => (hall f.name (List.mem_map_of_mem hf)).2
  have hlength : t.names.length = t.factories.length := List.length_map _
  cases hwrapper : t.wrapper with
  | none =>
    obtain ⟨hok, hl⟩ := buildNodes_of_sound h hsound hnodup hfree .empty
    rw [build_of_bare hclash hwrapper, home, ground, hwrapper, roster, hlength, hok]
    exact ⟨rfl, hl⟩
  | some name =>
    have hfree' : ∀ f ∈ t.factories, (t.wrapped name w).nameTaken f.name = false := by
      intro f hf
      rw [Bool.eq_false_iff]
      intro htaken
      cases (hfree f hf).symm.trans (h.nameTaken_of_wrapped htaken)
    have hsize : (t.wrapped name w).nodes.size = w.nodes.size := by
      rw [← Workspace.length_nodes_layout, h.layout_wrapped, ← w.length_nodes_layout]
      rfl
    obtain ⟨hok, hl⟩ := buildNodes_of_sound (h.wrapped t name) hsound hnodup hfree' .empty
    rw [h.layout_wrapped, Workspace.receiver?_wrapped, Workspace.graph?_wrapped] at hl
    rw [hsize] at hok
    rw [build_of_wrapper hclash hwrapper, home, ground, hwrapper, roster, hlength, hok]
    exact ⟨rfl, (Workspace.layout_leave _ _).trans hl⟩

end Template

end DotDiagram
