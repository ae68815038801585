import DotDiagram.Proofs.ClassDiagram.Items
import DotDiagram.Proofs.ClassDiagram.Legibility
import DotDiagram.Proofs.Dot.RoundTrip
import DotDiagram.Proofs.Workspace.Constructions

/-! Class diagrams are rendered as they are drawn. Building keeps a draft of the open
graph, class by class and relation by relation; only a name declared twice stops it. The
text has a line for each statement of the drawing, and can be read back. -/

namespace DotDiagram

theorem ClassNode.directAttrs_spec (c : ClassNode) :
    c.spec.directAttrs = .ok (c.attrs.insert "label" (.markup c.label)) := rfl

namespace Workspace

variable {w : Workspace} {g : GraphId} {theme : Option Theme} {nodes : Keyed NodeId}
  {doc : Dot.Document}

namespace Draft

theorem buildClass (h : w.Draft g theme nodes doc) (c : ClassNode) (hnew : c.name ∉ doc.names) :
    ∃ id w', w.buildNode c.spec = (.ok id, w') ∧
      w'.Draft g theme (nodes.insert c.name id) (doc.addNode (c.statement theme)) :=
  h.buildNode_new c.directAttrs_spec rfl hnew

/-- Classes that were known keep their nodes. -/
theorem classNamed (h : w.Draft g theme nodes doc) (name : String) :
    ∃ id nodes' w', w.classNamed name nodes = (.ok (id, nodes'), w') ∧
      w'.Draft g theme nodes' (doc.mention theme name) ∧ nodes'.get? name = some id ∧
      ∀ other i, nodes.get? other = some i → nodes'.get? other = some i := by
  cases hget : nodes.get? name with
  | some id =>
    have hmem : name ∈ doc.names := (h.listed name).mp (by rw [hget, Option.isSome_some])
    refine ⟨id, nodes, w, ?_, ?_, hget, fun _ _ ho => ho⟩
    · simp only [Workspace.classNamed, hget]
    · rw [Dot.Document.mention, if_pos hmem]
      exact h
  | none =>
    have hnew : name ∉ doc.names := by
      intro hmem
      have hs := (h.listed name).mpr hmem
      rw [hget] at hs
      cases hs
    obtain ⟨id, w', hb, hd⟩ := h.buildClass (ClassNode.plain name) hnew
    refine ⟨id, nodes.insert name id, w', ?_, ?_, ?_, ?_⟩
    · simp only [Workspace.classNamed, hget, hb]
    · rw [Dot.Document.mention, if_neg hnew]
      exact hd
    · rw [Keyed.get?_insert, if_pos rfl]
    · intro other i ho
      have hne : other ≠ name := by
        intro heq
        rw [heq, hget] at ho
        cases ho
      rw [Keyed.get?_insert, if_neg hne]
      exact ho

theorem relate (h : w.Draft g theme nodes doc) (r : Relation) {source target : NodeId}
    (hs : nodes.get? r.source = some source) (ht : nodes.get? r.target = some target) :
    (w.relate source target r.kind r.label).2.Draft g theme nodes
      (doc.addEdge (r.statement theme)) :=
  h.buildEdge ⟨source, target, [r.kind.style], .ofList (optionalAttr "label" r.label)⟩ hs ht

theorem buildRelations (h : w.Draft g theme nodes doc) (relations : List Relation) :
    ∃ nodes' w', w.buildRelations relations nodes = (.ok nodes', w') ∧
      w'.Draft g theme nodes' (relations.foldl (Dot.Document.relate theme) doc) := by
  induction relations generalizing w nodes doc with
  | nil => exact ⟨nodes, w, rfl, h⟩
  | cons r rest ih =>
    obtain ⟨source, nodes₁, w₁, hb₁, hd₁, hs, -⟩ := h.classNamed r.source
    obtain ⟨target, nodes₂, w₂, hb₂, hd₂, ht, hkept⟩ := hd₁.classNamed r.target
    have hd := hd₂.relate r (hkept r.source source hs) ht
    obtain ⟨nodes', w', hb, hd'⟩ := ih hd
    refine ⟨nodes', w', ?_, hd'⟩
    simp only [Workspace.buildRelations, hb₁, hb₂]
    exact hb

theorem buildClasses (h : w.Draft g theme nodes doc) {classes : List ClassDecl}
    (hd : (doc.names ++ classes.map ClassDecl.name).Nodup) :
    ∃ nodes' w', w.buildClasses classes nodes = (.ok nodes', w') ∧
      w'.Draft g theme nodes' { doc with
        nodes := doc.nodes ++ classes.map fun c => (ClassNode.ofDecl c).statement theme } := by
  induction classes generalizing w nodes doc with
  | nil =>
    refine ⟨nodes, w, rfl, ?_⟩
    rw [List.map_nil, List.append_nil]
    exact h
  | cons c rest ih =>
    have hnew : c.name ∉ doc.names := by
      intro hm
      exact (List.nodup_append.mp hd).2.2 c.name hm c.name List.mem_cons_self rfl
    obtain ⟨id, w₁, hb₁, hd₁⟩ := h.buildClass (ClassNode.ofDecl c) hnew
    rw [List.map_cons, List.append_cons] at hd
    have hnames : (doc.addNode ((ClassNode.ofDecl c).statement theme)).names =
        doc.names ++ [c.name] := Dot.Document.names_addNode _ doc
    rw [← hnames] at hd
    obtain ⟨nodes', w', hb, hd'⟩ := ih hd₁ hd
    refine ⟨nodes', w', ?_, ?_⟩
    · simp only [Workspace.buildClasses, hb₁]
      exact hb
    · rw [List.map_cons, List.append_cons]
      exact hd'

/-- The first name that was declared before is refused. -/
theorem buildClasses_repeated (h : w.Draft g theme nodes doc) {classes : List ClassDecl}
    {before after : List String} {name : String}
    (hc : classes.map ClassDecl.name = before ++ name :: after)
    (hd : (doc.names ++ before).Nodup) (hm : name ∈ doc.names ++ before) :
    (w.buildClasses classes nodes).1 = .error (.duplicateNode name) := by
  induction before generalizing w nodes doc classes with
  | nil =>
    rw [List.nil_append] at hc
    obtain ⟨c, rest, rfl, rfl, -⟩ := List.map_eq_cons_iff.mp hc
    rw [List.append_nil] at hm
    have hb := h.buildNode_taken (ClassNode.ofDecl c).directAttrs_spec rfl hm
    simp only [Workspace.buildClasses, hb]
    rfl
  | cons n before ih =>
    obtain ⟨c, rest, rfl, rfl, hrest⟩ := List.map_eq_cons_iff.mp hc
    have hnew : c.name ∉ doc.names := by
      intro hn
      exact (List.nodup_append.mp hd).2.2 c.name hn c.name List.mem_cons_self rfl
    obtain ⟨id, w₁, hb₁, hd₁⟩ := h.buildClass (ClassNode.ofDecl c) hnew
    have hnames : (doc.addNode ((ClassNode.ofDecl c).statement theme)).names =
        doc.names ++ [c.name] := Dot.Document.names_addNode _ doc
    rw [List.append_cons, ← hnames] at hd hm
    simp only [Workspace.buildClasses, hb₁]
    exact ih hd₁ hrest hd hm

theorem document?_leave (h : w.Draft g theme nodes doc) (scope : Scope) :
    (w.leave scope).2.document? g = some doc := by
  obtain ⟨graph, hg, hs⟩ := h.current
  have hl : (w.leave scope).2 = { w with ambient := (w.leave scope).2.ambient } := by
    obtain ⟨container, theme⟩ := scope
    cases theme <;> rfl
  have hw : w.Grows { w with ambient := (w.leave scope).2.ambient } :=
    ⟨fun _ _ hold => hold, fun _ _ hold => hold⟩
  rw [hl]
  exact (hs.of_grows hw).document? hg

end Draft

end Workspace

theorem Ambient.isIdle_iff (a : Ambient) : a.isIdle = true ↔
    a.nodeStyles = [] ∧ a.edgeStyles = [] ∧ a.themes = [] ∧ a.graphs = [] ∧ a.subgraphs = [] := by
  simp [Ambient.isIdle, and_assoc]

theorem ClassDiagram.drawing_eq_foldl (d : ClassDiagram) (options : ClassGraphOptions) :
    d.relations.foldl (Dot.Document.relate options.theme?) { options.sheet with
      nodes := options.sheet.nodes ++
        d.classes.map fun c => (ClassNode.ofDecl c).statement options.theme? } =
      d.drawing options := by
  have hnames : Dot.Document.names { options.sheet with
      nodes := options.sheet.nodes ++
        d.classes.map fun c => (ClassNode.ofDecl c).statement options.theme? } = d.declared := by
    simp only [Dot.Document.names, ClassGraphOptions.sheet, List.nil_append, List.map_map]
    rfl
  have hpairs : Dot.Document.pairs { options.sheet with
      nodes := options.sheet.nodes ++
        d.classes.map fun c => (ClassNode.ofDecl c).statement options.theme? } = [] := rfl
  rw [Dot.Document.foldl_relate, hnames, hpairs]
  simp only [ClassGraphOptions.sheet, List.nil_append, drawing, List.map_append, List.map_map]
  rfl

namespace Workspace

variable {w : Workspace}

/-- A graph just opened in an idle workspace is an empty sheet. -/
theorem draft_sheet (hw : w.ambient.isIdle = true) (options : ClassGraphOptions) :
    ∃ scope v, (w.buildGraph options.spec).2.enterGraph (w.buildGraph options.spec).1 =
        (.ok scope, v) ∧
      v.Draft (w.buildGraph options.spec).1 options.theme? .empty options.sheet := by
  obtain ⟨hnode, hedge, htheme, hgraph, hsub⟩ := w.ambient.isIdle_iff.mp hw
  let u := (w.buildGraph options.spec).2
  let g := (w.buildGraph options.spec).1
  have hnone : u.ambient.graph? = none := by
    show w.ambient.graph? = none
    rw [Ambient.graph?, hgraph]
    rfl
  have hchosen : (options.spec.theme.bind ThemeChoice.theme?).or w.ambient.theme? =
      options.theme? := by
    have hidle : w.ambient.theme? = none := by
      rw [Ambient.theme?, htheme]
      rfl
    rw [hidle, Option.or_none]
    rw [options.spec_eq, ClassGraphOptions.theme?, Option.bind_map]
    rfl
  have hplain : options.spec.name = options.name ∧ options.spec.kind = .directed := by
    rw [options.spec_eq]
    exact ⟨rfl, rfl⟩
  let graph : Graph := ⟨options.name, .directed, options.theme?,
    options.spec.resolve options.theme?, [], [], [], [], []⟩
  have hg : u.graph? g = some graph := by
    show (w.graphs.push _)[w.graphs.size]? = _
    rw [Array.getElem?_push_size, hchosen, hplain.1, hplain.2]
  have hopened : (Opening.graph g).themeOf u = options.theme? := by
    rw [Opening.themeOf, hg]
    rfl
  have hcanvas : (u.opened (.graph g)).Canvas g options.theme? := by
    have hinner : u.ambient.subgraph? = none := by
      show w.ambient.subgraph? = none
      rw [Ambient.subgraph?, hsub]
      rfl
    rw [opened, hopened]
    cases options.theme? with
    | none =>
      have houter : u.ambient.theme? = none := by
        show w.ambient.theme? = none
        rw [Ambient.theme?, htheme]
        rfl
      exact ⟨rfl, hinner, houter, hnode, hedge⟩
    | some t => exact ⟨rfl, hinner, rfl, hnode, hedge⟩
  refine ⟨_, _, enterGraph_eq_of_none g hnone, hcanvas, ⟨graph, hg, ?_⟩, ?_, ?_⟩
  · refine ⟨rfl, rfl, rfl, rfl, rfl, rfl, rfl, ?_, fun _ => .rfl, fun _ => .rfl⟩
    intro id hid
    cases hid
  · intro name
    simp [ClassGraphOptions.sheet, Dot.Document.names, Keyed.get?, Keyed.empty, findEntry]
  · intro name id hget
    cases hget

theorem buildClassGraph_distinct (hw : w.ambient.isIdle = true) {d : ClassDiagram}
    (hd : d.declared.Nodup) (options : ClassGraphOptions) :
    ∃ g w', w.buildClassGraph d options = (.ok g, w') ∧
      w'.document? g = some (d.drawing options) := by
  obtain ⟨scope, v, he, hv⟩ := draft_sheet hw options
  obtain ⟨nodes₁, v₁, hb₁, hv₁⟩ := hv.buildClasses hd
  obtain ⟨nodes₂, v₂, hb₂, hv₂⟩ := hv₁.buildRelations d.relations
  rw [d.drawing_eq_foldl] at hv₂
  refine ⟨_, (v₂.leave scope).2, ?_, hv₂.document?_leave scope⟩
  simp only [buildClassGraph, he, buildClassDiagram, hb₁, hb₂]
  rfl

theorem buildClassGraph_repeated (hw : w.ambient.isIdle = true) {d : ClassDiagram}
    {before after : List String} {name : String} (hd : d.declared = before ++ name :: after)
    (hb : before.Nodup) (hm : name ∈ before) (options : ClassGraphOptions) :
    (w.buildClassGraph d options).1 = .error (.duplicateNode name) := by
  obtain ⟨scope, v, he, hv⟩ := draft_sheet hw options
  have hr := hv.buildClasses_repeated hd hb hm
  simp only [buildClassGraph, he, buildClassDiagram]
  cases hc : v.buildClasses d.classes .empty with
  | mk result v' =>
    rw [hc] at hr
    simp only at hr
    rw [hr]
    rfl

end Workspace

/-- Nothing is lost in a drawing, and nothing repeated. -/
structure ClassDiagram.Portrayed (d : ClassDiagram) (doc : Dot.Document) : Prop where
  names : doc.names.Nodup
  known : ∀ name, name ∈ doc.names ↔ name ∈ d.declared ∨ name ∈ d.mentioned
  pairs : doc.pairs.Nodup
  related : ∀ pair, pair ∈ doc.pairs ↔ ∃ r ∈ d.relations, r.ends = pair
  order : d.drawnRelations.Sublist d.relations
  first : ∀ r ∈ d.drawnRelations, ∃ before after, d.relations = before ++ r :: after ∧
    ∀ q ∈ before, q.ends ≠ r.ends

theorem ClassDiagram.drawing_portrayed {d : ClassDiagram} (hd : d.declared.Nodup)
    (options : ClassGraphOptions) : d.Portrayed (d.drawing options) := by
  have hnames : (d.drawing options).names = d.declared ++ d.undeclared := by
    simp only [drawing, Dot.Document.names, List.map_append, List.map_map]
    congr 1
    exact List.map_id _
  have hpairs : (d.drawing options).pairs = d.drawnRelations.map Relation.ends := by
    simp only [drawing, Dot.Document.pairs, List.map_map]
    rfl
  have hmem : ∀ name, name ∈ d.undeclared ↔ name ∈ d.mentioned ∧ name ∉ d.declared := by
    intro name
    have hm : name ∈ d.undeclared.map id ↔ name ∈ d.mentioned.map id ∧ name ∉ d.declared :=
      mem_map_firstsBy
    rwa [List.map_id, List.map_id] at hm
  refine ⟨?_, ?_, ?_, ?_, firstsBy_sublist, fun r hr => first_of_mem_firstsBy hr⟩
  · have hund : (d.undeclared.map id).Nodup := nodup_map_firstsBy
    rw [List.map_id] at hund
    rw [hnames, List.nodup_append]
    refine ⟨hd, hund, ?_⟩
    intro a ha b hb heq
    exact ((hmem b).mp hb).2 (heq ▸ ha)
  · intro name
    rw [hnames, List.mem_append, hmem]
    by_cases hn : name ∈ d.declared
    · simp [hn]
    · simp [hn]
  · rw [hpairs]
    exact nodup_map_firstsBy
  · intro pair
    rw [hpairs, drawnRelations, mem_map_firstsBy, List.mem_map]
    simp

/-- A text is rendered if and only if it can be read and no class is declared twice;
otherwise the error says what is wrong first. The text that comes out says the drawing,
line by line, and nothing else. -/
theorem diagram_rendered (w : Workspace) (hw : w.ambient.isIdle = true) (text : String)
    (options : ClassGraphOptions) :
    (∀ e, ClassDiagram.ofText text = .error e → w.renderClassDiagram text options = .error e) ∧
    ∀ d, ClassDiagram.ofText text = .ok d →
      (d.declared.Nodup → ∃ out, w.renderClassDiagram text options = .ok out ∧
        out = String.intercalate "\n" (d.drawing options).lines ∧
        Dot.read? out = some (d.drawing options).shown ∧ d.Portrayed (d.drawing options)) ∧
      (¬ d.declared.Nodup → ∃ before name after, d.declared = before ++ name :: after ∧
        before.Nodup ∧ name ∈ before ∧
          w.renderClassDiagram text options = .error (.duplicateNode name)) := by
  constructor
  · intro e he
    rw [Workspace.renderClassDiagram, he]
  intro d hd
  constructor
  · intro hdistinct
    obtain ⟨g, w', hb, hdoc⟩ := Workspace.buildClassGraph_distinct hw hdistinct options
    refine ⟨(d.drawing options).text, ?_, rfl, (d.legible_drawing options).read?_text,
      ClassDiagram.drawing_portrayed hdistinct options⟩
    simp only [Workspace.renderClassDiagram, hd, hb, Workspace.dot?, hdoc]
    rfl
  · intro hrepeated
    obtain ⟨before, name, after, hsplit, hb, hm⟩ :=
      exists_first_repeated (List.nodup_nil : ([] : List String).Nodup) hrepeated
    refine ⟨before, name, after, hsplit, hb, hm, ?_⟩
    have hr := Workspace.buildClassGraph_repeated hw hsplit hb hm options
    cases hg : w.buildClassGraph d options with
    | mk result w' =>
      rw [hg] at hr
      simp only at hr
      simp only [Workspace.renderClassDiagram, hd, hg, hr]

/-- Two relations with the same ends, and a class that is only mentioned. -/
def entangled : ClassDiagram where
  classes := [⟨.concrete, "A", none, [], []⟩]
  relations := [⟨"A", "B", .inheritance, some "first"⟩, ⟨"A", "B", .inheritance, none⟩]

def entangledText : String := "class A {}\nB <|-- A : first\nA --|> B\n"

theorem ofText_entangledText : ClassDiagram.ofText entangledText = .ok entangled := by
  have h₁ : ClassDiagram.item? entangledText.toList =
    some (.declared ⟨.concrete, "A", none, [], []⟩, "B <|-- A : first\nA --|> B\n".toList) := rfl
  have h₂ : ClassDiagram.item? "B <|-- A : first\nA --|> B\n".toList =
    some (.related ⟨"A", "B", .inheritance, some "first"⟩, "A --|> B\n".toList) := rfl
  have h₃ : ClassDiagram.item? "A --|> B\n".toList =
    some (.related ⟨"A", "B", .inheritance, none⟩, []) := rfl
  have hi := ClassDiagram.items_of_item? h₁
  rw [ClassDiagram.items_of_item? h₂, ClassDiagram.items_of_item? h₃,
    ClassDiagram.items_nil] at hi
  exact ClassDiagram.ofText_of_items hi

/-- A class without attributes and methods. -/
def bareClassLine (name : String) : String :=
  "  \"" ++ name ++ "\" [shape=\"box\", style=\"filled\", fillcolor=\"lightblue\", " ++
    "fontname=\"Helvetica\", label=<<TABLE BORDER=\"0\" CELLBORDER=\"1\" " ++
    "CELLSPACING=\"0\" CELLPADDING=\"4\">\n  <TR><TD><B>" ++ name ++
    "</B></TD></TR>\n</TABLE>>];"

def entangledLines : List String :=
  ["digraph \"classes\" \x7b", "  rankdir=\"TB\";", "  splines=\"ortho\";",
    "  nodesep=\"0.8\";", "  ranksep=\"1\";", bareClassLine "A", bareClassLine "B",
    "  \"A\" -> \"B\" [arrowhead=\"empty\", color=\"black\", penwidth=\"1.5\", " ++
      "label=\"first\"];", "\x7d"]

theorem entangled_rendered : Workspace.empty.ambient.isIdle = true ∧
    ClassDiagram.ofText entangledText = .ok entangled ∧ entangled.declared.Nodup ∧
      Workspace.empty.renderClassDiagram entangledText .default =
        .ok (String.intercalate "\n" entangledLines) ∧
      Dot.read? (String.intercalate "\n" entangledLines) =
        some (entangled.drawing .default).shown := by
  have hn : entangled.declared.Nodup := by decide
  have hlines : (entangled.drawing .default).lines = entangledLines := by decide +kernel
  have hr := (diagram_rendered .empty rfl entangledText .default).2 entangled ofText_entangledText
  obtain ⟨out, hout, rfl, hread, -⟩ := hr.1 hn
  rw [hlines] at hout hread
  exact ⟨rfl, ofText_entangledText, hn, hout, hread⟩

end DotDiagram
