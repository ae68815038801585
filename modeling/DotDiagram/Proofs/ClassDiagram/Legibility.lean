import DotDiagram.Proofs.ClassDiagram.Drawing
import DotDiagram.Proofs.ClassDiagram.Label
import DotDiagram.Proofs.Layers

/-! Drawings of class diagrams are legible. The names of their attributes are identifiers in all
themes and styles, and their only markup is that of labels, which is balanced. -/

namespace DotDiagram

theorem mem_writeEntry {α : Type} {key : String} {value : α} {entries : List (String × α)}
    {e : String × α} (h : e ∈ writeEntry key value entries) : e = (key, value) ∨ e ∈ entries := by
  induction entries with
  | nil => exact .inl (List.mem_singleton.mp h)
  | cons entry rest ih =>
    obtain ⟨k, v⟩ := entry
    by_cases hk : k = key
    · rw [writeEntry, if_pos hk] at h
      exact (List.mem_cons.mp h).imp_right (List.mem_cons_of_mem _)
    · rw [writeEntry, if_neg hk] at h
      rcases List.mem_cons.mp h with rfl | hrest
      · exact .inr List.mem_cons_self
      · exact (ih hrest).imp_right (List.mem_cons_of_mem _)

namespace AttrSet.Legible

variable {attrs attrs' : AttrSet} {entries : List (String × AttrValue)}

theorem insert (h : AttrSet.Legible attrs) {key : String} {value : AttrValue}
    (hkey : Dot.isKey key = true) (hvalue : value.Legible) :
    AttrSet.Legible (attrs.insert key value) := by
  intro e he
  rcases mem_writeEntry he with rfl | he
  · exact ⟨hkey, hvalue⟩
  · exact h e he

theorem insertAll (h : AttrSet.Legible attrs)
    (hentries : ∀ e ∈ entries, Dot.isKey e.1 = true ∧ e.2.Legible) :
    AttrSet.Legible (attrs.insertAll entries) := by
  induction entries generalizing attrs with
  | nil => exact h
  | cons e rest ih =>
    have he := hentries e List.mem_cons_self
    exact ih (h.insert he.1 he.2) fun e' he' => hentries e' (List.mem_cons_of_mem e he')

theorem merge (h : AttrSet.Legible attrs) (h' : AttrSet.Legible attrs') :
    AttrSet.Legible (attrs.merge attrs') :=
  h.insertAll h'

theorem empty : AttrSet.Legible Keyed.empty := nofun

theorem optionalAttr {key : String} (hkey : Dot.isKey key = true) (value : Option String) :
    AttrSet.Legible (.ofList (optionalAttr key value)) := by
  cases value with
  | none => exact empty
  | some text => exact empty.insert hkey trivial

end AttrSet.Legible

/-- What is resolved from legible layers is legible. -/
theorem Layers.legible_resolve {kind : ElementKind} {layers : Layers kind}
    (htheme : ∀ style ∈ layers.theme, AttrSet.Legible style.attrs)
    (hambient : ∀ style ∈ layers.ambient, AttrSet.Legible style.attrs)
    (hexplicit : ∀ style ∈ layers.explicit, AttrSet.Legible style.attrs)
    (hdirect : AttrSet.Legible layers.direct) : AttrSet.Legible layers.resolve := by
  rw [layers.resolve_eq_overlay, Keyed.overlay_eq_ofList]
  refine AttrSet.Legible.empty.insertAll fun e he => ?_
  obtain ⟨attrs, hattrs, he⟩ := List.mem_flatMap.mp he
  simp only [sources, List.mem_append, List.mem_map, List.mem_singleton,
    Option.mem_toList] at hattrs
  rcases hattrs with ((⟨style, hstyle, rfl⟩ | ⟨style, hstyle, rfl⟩) | ⟨style, hstyle, rfl⟩) | rfl
  · exact htheme style hstyle e he
  · exact hambient style hstyle e he
  · exact hexplicit style hstyle e he
  · exact hdirect e he

structure Theme.Legible (t : Theme) : Prop where
  graph : AttrSet.Legible t.graph.attrs
  node : AttrSet.Legible t.node.attrs
  edge : AttrSet.Legible t.edge.attrs

theorem Theme.legible_of_named? {name : String} {t : Theme} (h : named? name = some t) :
    t.Legible := by
  have hall : ∀ t ∈ builtin, AttrSet.Legible t.graph.attrs ∧ AttrSet.Legible t.node.attrs ∧
      AttrSet.Legible t.edge.attrs := by decide
  obtain ⟨hgraph, hnode, hedge⟩ := hall t (List.mem_of_find?_eq_some h)
  exact ⟨hgraph, hnode, hedge⟩

section

variable {theme : Option Theme} (htheme : ∀ t ∈ theme, t.Legible)
include htheme

theorem ClassNode.legible_statement {c : ClassNode}
    (hstyles : ∀ style ∈ c.styles, AttrSet.Legible style.attrs) (hattrs : AttrSet.Legible c.attrs) :
    AttrSet.Legible (c.statement theme).attrs := by
  have hclass : AttrSet.Legible classStyle.attrs := by decide
  have hkind : ∀ style ∈ c.kind.style?, AttrSet.Legible style.attrs := by
    cases c.kind <;> decide
  refine Layers.legible_resolve ?_ nofun ?_ (hattrs.insert (by decide) c.balanced_label)
  · intro style hstyle
    obtain ⟨t, ht, rfl⟩ := Option.map_eq_some_iff.mp hstyle
    exact (htheme t ht).node
  · intro style hstyle
    rw [allStyles, List.mem_cons, List.mem_append, Option.mem_toList] at hstyle
    rcases hstyle with rfl | hstyle | hstyle
    · exact hclass
    · exact hkind style hstyle
    · exact hstyles style hstyle

theorem Relation.legible_statement (r : Relation) :
    AttrSet.Legible (r.statement theme).attrs := by
  have hkind : AttrSet.Legible r.kind.style.attrs := by
    cases r.kind <;> decide
  refine Layers.legible_resolve ?_ nofun ?_ (.optionalAttr (by decide) r.label)
  · intro style hstyle
    obtain ⟨t, ht, rfl⟩ := Option.map_eq_some_iff.mp hstyle
    exact (htheme t ht).edge
  · intro style hstyle
    rwa [List.mem_singleton.mp hstyle]

end

theorem legible_withRankDir {attrs : AttrSet} (h : AttrSet.Legible attrs) (dir : Option RankDir) :
    AttrSet.Legible (withRankDir attrs dir) := by
  have hkey : Dot.isKey "rankdir" = true := by decide
  cases dir with
  | some d => exact h.insert hkey trivial
  | none =>
    rw [withRankDir]
    split
    · exact h
    · exact h.insert hkey trivial

theorem ClassGraphOptions.legible_sheet (options : ClassGraphOptions)
    (htheme : ∀ t ∈ options.theme?, t.Legible) : AttrSet.Legible options.sheet.attrs := by
  have hgraph : AttrSet.Legible classGraphStyle.attrs := by decide
  have hlayers : AttrSet.Legible (Layers.resolve
      ⟨options.theme?.map Theme.graph, [], [classGraphStyle], .empty⟩) := by
    refine Layers.legible_resolve ?_ nofun ?_ .empty
    · intro style hstyle
      obtain ⟨t, ht, rfl⟩ := Option.map_eq_some_iff.mp hstyle
      exact (htheme t ht).graph
    · intro style hstyle
      rwa [List.mem_singleton.mp hstyle]
  rw [sheet, spec_eq]
  exact (legible_withRankDir hlayers options.rankDir).merge .empty

/-- Whatever classes and relations are called, and whatever the options are. -/
theorem ClassDiagram.legible_drawing (d : ClassDiagram) (options : ClassGraphOptions) :
    (d.drawing options).Legible := by
  have htheme : ∀ t ∈ options.theme?, t.Legible := by
    intro t ht
    obtain ⟨name, -, hname⟩ := Option.bind_eq_some_iff.mp ht
    exact Theme.legible_of_named? hname
  refine ⟨options.legible_sheet htheme, fun node hnode => ?_, fun edge hedge => ?_, trivial⟩
  · obtain ⟨c, hc, rfl⟩ := List.mem_map.mp hnode
    -- Neither a declared class nor one that is only mentioned has styles of its own.
    have hown : c.styles = [] ∧ c.attrs = .empty := by
      rcases List.mem_append.mp hc with hc | hc
      · obtain ⟨decl, -, rfl⟩ := List.mem_map.mp hc
        exact ⟨rfl, rfl⟩
      · obtain ⟨name, -, rfl⟩ := List.mem_map.mp hc
        exact ⟨rfl, rfl⟩
    refine ClassNode.legible_statement htheme ?_ ?_
    · rw [hown.1]
      nofun
    · rw [hown.2]
      exact .empty
  · obtain ⟨r, -, rfl⟩ := List.mem_map.mp hedge
    exact r.legible_statement htheme

end DotDiagram
