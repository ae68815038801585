import DotDiagram.Proofs.Workspace.Registration

/-! Rejected groups. The names of a template are checked before anything is made, and a
factory that keeps its name and gives one text for the label cannot fail after that. Other
factories can, and then the wrapper and the nodes made before stay where they are. -/

namespace DotDiagram

/-- The group gets as far as to leave something behind: its names are free, something
receives what is made, and the wrapper or else the first node is made. -/
def Template.Begins (t : Template) (w : Workspace) : Prop :=
  Template.firstClash w [] t.names = none ∧ w.containerOpen = true ∧
    (t.wrapper.isSome = true ∨ ∃ f ∈ t.factories.head?, ∃ id,
      (w.buildNode (f.specify (.named f.name))).1 = .ok id)

namespace Layout

variable {receiver : Option Container} {current : Option GraphId} {l l' : Layout} {g : GraphId}
  {c : Container}

theorem Grow.claims_of_ne (h : Grow receiver current l l') (hg : current ≠ some g) :
    l'.claims g = l.claims g := by
  cases h with
  | node name fresh => simp [addNode, listNode, claim, pushNode, hg]
  | @edge source target attached _ _ _ =>
    cases attached <;> simp [addEdge, list, claim, pushEdge, hg]
  | subgraph => rfl
  | graph => rfl

theorem Grown.contents_of_ne (h : Grown receiver current l l') (hc : receiver ≠ some c) :
    l'.contents c = l.contents c := by
  induction h with
  | refl => rfl
  | tail _ hg ih => exact (hg.contents_of_ne hc).trans ih

theorem Grown.claims_of_ne (h : Grown receiver current l l') (hg : current ≠ some g) :
    l'.claims g = l.claims g := by
  induction h with
  | refl => rfl
  | tail _ hst ih => exact (hst.claims_of_ne hg).trans ih

theorem Grown.outlived (h : Grown receiver current l l') (hw : l.WellFormed)
    (hr : ∀ c, receiver = some c → l.Has c) : l.Outlived l' := by
  induction h with
  | refl => exact .refl l
  | tail hs hg ih => exact ih.trans (hg.outlived (Grown.wellFormed hs hw hr))

end Layout

namespace Workspace

variable {w w' : Workspace} {entries : List Entered} {name x : String}

/-- Nothing of what there was has changed in what it lists or claims or says, and the same
names are free. -/
structure Untouched (w w' : Workspace) : Prop where
  contents : ∀ c, w.layout.Has c → w'.layout.contents c = w.layout.contents c
  claims : ∀ g, w.HasGraph g → w'.layout.claims g = w.layout.claims g
  documents : ∀ g, w.HasGraph g → w'.dot? g = w.dot? g
  free : ∀ name, w'.nameTaken name = w.nameTaken name

theorem Untouched.refl (w : Workspace) : Untouched w w :=
  ⟨fun _ _ => rfl, fun _ _ => rfl, fun _ _ => rfl, fun _ => rfl⟩

theorem KeepsLooks.untouched (h : KeepsLooks w w') (hw : w.layout.WellFormed)
    (hc : ∀ c, w.layout.Has c → w'.layout.contents c = w.layout.contents c)
    (hk : ∀ g, w.HasGraph g → w'.layout.claims g = w.layout.claims g)
    (hf : ∀ name, w'.nameTaken name = w.nameTaken name) : Untouched w w' := by
  refine ⟨hc, hk, fun g hg => h.dot? hw hg fun c hin => hc c ?_, hf⟩
  have hhas : w.layout.Has (.graph g) := hg
  exact hw.has_of_within hhas hin

end Workspace

namespace Template

variable {w : Workspace} {entries : List Entered}

section

variable {t : Template} {name : String}

/-- Sound factories cannot fail once the names have been checked. -/
theorem build_eq_of_sound (h : w.Tended entries) (hsound : ∀ f ∈ t.factories, f.Sound) {e : Error}
    (he : (t.build w).1 = .error e) : (t.build w).2 = w := by
  cases hclash : firstClash w [] t.names with
  | some name => rw [build_of_clash hclash]
  | none => cases (build_of_sound h hsound hclash).1.symm.trans he

/-- What is made in the wrapper goes there, and no graph claims a name that none has open. -/
theorem wrapped_grown (h : w.Tended entries) (t : Template) (name : String) :
    ((w.buildSubgraph (t.wrapperSpec name)).2.layout).Grown (some (.subgraph ⟨w.subgraphs.size⟩))
      w.ambient.graph? ((buildNodes t.factories .empty (t.wrapped name w)).2.leave
        ((Opening.subgraph ⟨w.subgraphs.size⟩).held
          (w.buildSubgraph (t.wrapperSpec name)).2).scope).2.layout := by
  let u := (w.buildSubgraph (t.wrapperSpec name)).2
  have hu := (h.act (.subgraph (t.wrapperSpec name))).1
  have known : (Opening.subgraph ⟨w.subgraphs.size⟩).Known u :=
    w.hasSubgraph_buildSubgraph (t.wrapperSpec name)
  have hgrown := hu.scope_grown known
    (Workspace.drawing_buildNodes (t.wrapped name w) t.factories .empty)
  rwa [u.receiver?_opened_subgraph, u.graph?_opened (o := .subgraph ⟨w.subgraphs.size⟩) nofun,
    w.ambient_buildSubgraph] at hgrown

/-- With nothing open the wrapper and the nodes stand nowhere. -/
theorem build_of_closed (h : w.Tended entries) (hclash : firstClash w [] t.names = none)
    (hr : w.ambient.receiver? = none) (hg : w.ambient.graph? = none) :
    (∀ c, w.layout.Has c → (t.build w).2.layout.contents c = w.layout.contents c) ∧
      ∀ g, (t.build w).2.layout.claims g = w.layout.claims g := by
  cases hwrapper : t.wrapper with
  | none =>
    have hd := w.drawing_buildNodes t.factories .empty
    have hgrown := (h.course_grown ((Workspace.Course.refl w).drawing hd)).2.2
    rw [hr, hg] at hgrown
    rw [build_of_bare hclash hwrapper]
    exact ⟨fun c _ => hgrown.contents_of_ne nofun, fun g => hgrown.claims_of_ne nofun⟩
  | some name =>
    have hmade := h.anchored.layout_buildSubgraph (t.wrapperSpec name)
    have hgrown := wrapped_grown h t name
    rw [hmade, hr, hg] at hgrown
    rw [build_of_wrapper hclash hwrapper]
    refine ⟨fun c hc => ?_, fun g => hgrown.claims_of_ne nofun⟩
    refine (hgrown.contents_of_ne fun heq => ?_).trans (Layout.contents_addSubgraph _ _ c)
    cases heq
    exact Nat.lt_irrefl _ hc

theorem untouched_of_not_begins (h : w.Tended entries) {e : Error}
    (he : (t.build w).1 = .error e) (hb : ¬ t.Begins w) : w.Untouched (t.build w).2 := by
  have hlooks : w.KeepsLooks (t.build w).2 := Workspace.KeepsLooks.respected.template w t
  cases hclash : firstClash w [] t.names with
  | some name =>
    rw [build_of_clash hclash]
    exact .refl w
  | none =>
    by_cases hopen : w.containerOpen = true
    · cases hwrapper : t.wrapper with
      | some name => exact absurd ⟨hclash, hopen, .inl (by rw [hwrapper]; rfl)⟩ hb
      | none =>
        rw [build_of_bare hclash hwrapper] at he hlooks ⊢
        cases hfactories : t.factories with
        | nil =>
          rw [hfactories] at he
          cases he
        | cons f rest =>
          cases hfirst : (w.buildNode (f.specify (.named f.name))).1 with
          | ok id =>
            have hhead : f ∈ t.factories.head? := by rw [hfactories]; rfl
            exact absurd ⟨hclash, hopen, .inr ⟨f, hhead, id, hfirst⟩⟩ hb
          | error e' =>
            -- Nothing follows on the first node, which is refused.
            have hstate : (buildNodes (f :: rest) .empty w).2 =
                (w.buildNode (f.specify (.named f.name))).2 := by
              rw [buildNodes, show w.buildNode (f.specify (.named f.name)) = (.error e', _) from
                Prod.ext hfirst rfl]
            rw [hfactories] at hlooks
            rw [hstate] at hlooks ⊢
            rcases h.anchored.layout_buildNode (f.specify (.named f.name)) with
              ⟨-, hl⟩ | ⟨-, hok, -⟩
            · refine hlooks.untouched h.wellFormed ?_ ?_ ?_
              · exact fun c _ => congrArg (Layout.contents · c) hl
              · exact fun g _ => congrArg (Layout.claims · g) hl
              · exact Workspace.nameTaken_congr h.wellFormed (w.ambient_buildNode _) hl
            · cases hok.symm.trans hfirst
    · rw [Workspace.containerOpen_eq, Option.not_isSome_iff_eq_none] at hopen
      obtain ⟨hsub, hgraph⟩ : w.ambient.subgraph? = none ∧ w.ambient.graph? = none := by
        simpa [Ambient.receiver?] using hopen
      obtain ⟨hcontents, hclaims⟩ := build_of_closed h hclash hopen hgraph
      have hambient := h.holds.eq_of_same (t.build_holds h.holds)
      refine hlooks.untouched h.wellFormed hcontents (fun g _ => hclaims g) fun name => ?_
      have hgraph' : (t.build w).2.ambient.graph? = none := by
        rw [hambient]
        exact hgraph
      have hsub' : (t.build w).2.ambient.subgraph? = none := by
        rw [hambient]
        exact hsub
      rw [Workspace.nameTaken_of_closed hgraph' hsub', Workspace.nameTaken_of_closed hgraph hsub]

/-- What the receiver lists anew stays listed, whether or not the rest can be made. -/
theorem not_untouched_of_begins (h : w.Tended entries) (hb : t.Begins w) :
    ¬ w.Untouched (t.build w).2 := by
  intro huntouched
  obtain ⟨hclash, hopen, hfirst⟩ := hb
  rw [Workspace.containerOpen_eq] at hopen
  obtain ⟨c, hc⟩ := Option.isSome_iff_exists.mp hopen
  have hsame := huntouched.contents c (h.receiver_known c hc)
  cases hwrapper : t.wrapper with
  | some name =>
    have hmade := h.anchored.layout_buildSubgraph (t.wrapperSpec name)
    have hlater := (wrapped_grown h t name).extended.listedSubgraphs c
    have hlisted :
        (⟨w.subgraphs.size⟩ : SubgraphId) ∈ ((t.build w).2.layout.contents c).subgraphs := by
      rw [build_of_wrapper hclash hwrapper]
      apply hlater.subset
      rw [hmade]
      exact (Layout.mem_subgraphs_addSubgraph _ _).mpr (.inr ⟨rfl, hc⟩)
    rw [hsame] at hlisted
    exact Nat.lt_irrefl _ (h.wellFormed.childKnown c _ hlisted)
  | none =>
    rcases hfirst with hsome | ⟨f, hf, id, hok⟩
    · rw [hwrapper] at hsome
      cases hsome
    · obtain ⟨rest, hfactories⟩ : ∃ rest, t.factories = f :: rest := by
        cases hfs : t.factories with
        | nil => rw [hfs] at hf; cases hf
        | cons f' rest => rw [hfs] at hf; cases hf; exact ⟨rest, rfl⟩
      have hbuilt := (h.act (.draw (.node (f.specify (.named f.name))))).1
      have hd := Workspace.drawing_buildNodes (w.buildNode (f.specify (.named f.name))).2 rest
        (Keyed.empty.insert f.name id)
      have hgrown := (hbuilt.course_grown ((Workspace.Course.refl _).drawing hd)).2.2
      have houtlived := hgrown.outlived hbuilt.wellFormed hbuilt.receiver_known
      rcases h.anchored.layout_buildNode (f.specify (.named f.name)) with
        ⟨⟨e, he⟩, -⟩ | ⟨-, -, hl⟩
      · cases he.symm.trans hok
      · have hnew : (⟨w.layout.nodes.length⟩ : NodeId) ∈
            ((w.buildNode (f.specify (.named f.name))).2.layout.contents c).nodes := by
          rw [hl, Layout.contents_addNode, if_pos hc]
          exact Layout.self_mem_place h.wellFormed c _ _
        obtain ⟨m, hm, hle⟩ := houtlived c _ hnew
        rw [← buildNodes_cons hok, ← hfactories] at hm
        rw [build_of_bare hclash hwrapper] at hsame
        rw [hsame] at hm
        exact Nat.not_lt_of_le hle (h.wellFormed.node_known hm)

end

end Template

namespace Session

variable {s : Session} {t : Template}

/-- A rejected group leaves nothing behind if its factories are sound, and else just when it
did not get as far as its first node or its wrapper. -/
theorem rejected_build (hs : Reachable s) {e : Error}
    (he : (t.build s.workspace).1 = .error e) :
    ((∀ f ∈ t.factories, f.Sound) → (t.build s.workspace).2 = s.workspace) ∧
      (s.workspace.Untouched (t.build s.workspace).2 ↔ ¬ t.Begins s.workspace) := by
  have ht := tended_of_reachable hs
  refine ⟨fun hsound => Template.build_eq_of_sound ht hsound he, ?_, ?_⟩
  · exact fun huntouched hb => Template.not_untouched_of_begins ht hb huntouched
  · exact Template.untouched_of_not_begins ht he

/-- The second name of the group is taken. -/
def clashing : Template := ((Template.empty.plain "c").plain "a").inSubgraph (some "svc")

theorem furnished_rejected :
    Reachable furnished ∧
      (clashing.build furnished.workspace).1 = .error (.duplicateNode "a") ∧
      (∀ f ∈ clashing.factories, f.Sound) ∧
      (clashing.build furnished.workspace).2 = furnished.workspace ∧
      furnished.workspace.Untouched (clashing.build furnished.workspace).2 := by
  have hs := Orderly.reachable furnished_orderly
  have he : (clashing.build furnished.workspace).1 = .error (.duplicateNode "a") := rfl
  have hsound : ∀ f ∈ clashing.factories, f.Sound := by
    intro f hf
    have hlisted : f ∈ [⟨"c", id⟩, ⟨"a", id⟩] := hf
    rcases List.mem_pair.mp hlisted with rfl | rfl
    · exact ⟨rfl, .inl rfl⟩
    · exact ⟨rfl, .inl rfl⟩
  obtain ⟨hsame, hiff⟩ := rejected_build hs he
  refine ⟨hs, he, hsound, hsame hsound, hiff.mpr fun hb => ?_⟩
  have hclash : Template.firstClash furnished.workspace [] clashing.names = some "a" := rfl
  cases hclash.symm.trans hb.1

/-- The second node gets two texts for its label. -/
def torn : Template :=
  (Template.empty.plain "a").node "b" fun spec =>
    { spec with html := some "x", markdown := some "y" }

/-- The first node stays in the graph, and its name is taken. -/
theorem torn_leaves_node :
    Reachable divided ∧
      (torn.build divided.workspace).1 = .error .conflictingLabels ∧
      (divided.workspace.layout.contents (.graph ⟨0⟩)).nodes = [] ∧
      ((torn.build divided.workspace).2.layout.contents (.graph ⟨0⟩)).nodes = [⟨0⟩] ∧
      divided.workspace.nameTaken "a" = false ∧
      (torn.build divided.workspace).2.nameTaken "a" = true ∧
      ¬ divided.workspace.Untouched (torn.build divided.workspace).2 := by
  have hbefore : divided.workspace.nameTaken "a" = false := rfl
  have hafter : (torn.build divided.workspace).2.nameTaken "a" = true := rfl
  refine ⟨Orderly.reachable divided_orderly, rfl, rfl, rfl, hbefore, hafter, fun h => ?_⟩
  have hfree := h.free "a"
  rw [hafter, hbefore] at hfree
  cases hfree

end Session

end DotDiagram
