import DotDiagram.Proofs.Workspace.Draft
import DotDiagram.Workspace.ClassGraph

/-! What a class diagram is drawn as: the declared classes, then a plain class for each
other name that relations mention, and of the relations with the same ends the first. -/

namespace DotDiagram

section

variable {α β : Type} [DecidableEq β]

/-- Of the items with one key only the first is kept, and none whose key is in `seen`. -/
def firstsBy (key : α → β) : List β → List α → List α
  | _, [] => []
  | seen, a :: rest =>
    if key a ∈ seen then firstsBy key seen rest
    else a :: firstsBy key (seen ++ [key a]) rest

variable {key : α → β} {seen : List β} {items : List α}

theorem firstsBy_sublist : (firstsBy key seen items).Sublist items := by
  induction items generalizing seen with
  | nil => exact .refl []
  | cons a rest ih =>
    by_cases ha : key a ∈ seen
    · rw [firstsBy, if_pos ha]
      exact ih.cons a
    · rw [firstsBy, if_neg ha]
      exact ih.cons_cons a

theorem firstsBy_append {more : List α} :
    firstsBy key seen (items ++ more) = firstsBy key seen items ++
      firstsBy key (seen ++ (firstsBy key seen items).map key) more := by
  induction items generalizing seen with
  | nil => simp [firstsBy]
  | cons a rest ih =>
    by_cases ha : key a ∈ seen
    · rw [List.cons_append, firstsBy, if_pos ha, firstsBy, if_pos ha, ih]
    · rw [List.cons_append, firstsBy, if_neg ha, firstsBy, if_neg ha, ih, List.map_cons,
        List.cons_append, ← List.append_cons]

theorem mem_map_firstsBy {b : β} :
    b ∈ (firstsBy key seen items).map key ↔ b ∈ items.map key ∧ b ∉ seen := by
  induction items generalizing seen with
  | nil => simp [firstsBy]
  | cons a rest ih =>
    by_cases ha : key a ∈ seen
    · rw [firstsBy, if_pos ha, ih, List.map_cons, List.mem_cons]
      constructor
      · rintro ⟨hb, hs⟩
        exact ⟨.inr hb, hs⟩
      · rintro ⟨rfl | hb, hs⟩
        · exact absurd ha hs
        · exact ⟨hb, hs⟩
    · rw [firstsBy, if_neg ha, List.map_cons, List.map_cons, List.mem_cons, List.mem_cons, ih,
        List.mem_append, List.mem_singleton]
      by_cases hb : b = key a
      · simp [hb, ha]
      · simp [hb]

theorem nodup_map_firstsBy : ((firstsBy key seen items).map key).Nodup := by
  induction items generalizing seen with
  | nil => exact List.nodup_nil
  | cons a rest ih =>
    by_cases ha : key a ∈ seen
    · rw [firstsBy, if_pos ha]
      exact ih
    · rw [firstsBy, if_neg ha, List.map_cons, List.nodup_cons]
      refine ⟨?_, ih⟩
      rw [mem_map_firstsBy]
      rintro ⟨-, hs⟩
      exact hs (List.mem_append_right seen (List.mem_singleton.mpr rfl))

/-- What is kept comes before all else with its key. -/
theorem first_of_mem_firstsBy {a : α} (h : a ∈ firstsBy key seen items) :
    ∃ before after, items = before ++ a :: after ∧ ∀ b ∈ before, key b ≠ key a := by
  induction items generalizing seen with
  | nil => cases h
  | cons c rest ih =>
    by_cases hc : key c ∈ seen
    · have hseen : key a ∉ seen := (mem_map_firstsBy.mp (List.mem_map_of_mem h)).2
      rw [firstsBy, if_pos hc] at h
      obtain ⟨before, after, rfl, hb⟩ := ih h
      refine ⟨c :: before, after, rfl, ?_⟩
      intro b hm heq
      rcases List.mem_cons.mp hm with rfl | hm
      · exact hseen (heq ▸ hc)
      · exact hb b hm heq
    · rw [firstsBy, if_neg hc] at h
      rcases List.mem_cons.mp h with rfl | h
      · exact ⟨[], rest, rfl, nofun⟩
      · have hseen := (mem_map_firstsBy.mp (List.mem_map_of_mem h)).2
        obtain ⟨before, after, rfl, hb⟩ := ih h
        refine ⟨c :: before, after, rfl, ?_⟩
        intro b hm heq
        rcases List.mem_cons.mp hm with rfl | hm
        · exact hseen (List.mem_append_right seen (List.mem_singleton.mpr heq.symm))
        · exact hb b hm heq

end

theorem exists_first_repeated {seen names : List String} (hs : seen.Nodup)
    (h : ¬ (seen ++ names).Nodup) : ∃ before name after,
      names = before ++ name :: after ∧ (seen ++ before).Nodup ∧ name ∈ seen ++ before := by
  induction names generalizing seen with
  | nil =>
    rw [List.append_nil] at h
    exact absurd hs h
  | cons n rest ih =>
    by_cases hn : n ∈ seen
    · refine ⟨[], n, rest, rfl, ?_, ?_⟩
      · rwa [List.append_nil]
      · rwa [List.append_nil]
    · have hs' : (seen ++ [n]).Nodup := by
        rw [List.nodup_append]
        refine ⟨hs, List.nodup_cons.mpr ⟨List.not_mem_nil, List.nodup_nil⟩, ?_⟩
        intro a ha b hb hab
        rw [List.mem_singleton] at hb
        exact hn (hb ▸ hab ▸ ha)
      rw [List.append_cons] at h
      obtain ⟨before, name, after, rfl, hb, hm⟩ := ih hs' h
      rw [← List.append_cons] at hb hm
      exact ⟨n :: before, name, after, rfl, hb, hm⟩

def ClassNode.statement (theme : Option Theme) (c : ClassNode) : Dot.NodeStatement :=
  ⟨c.name, Layers.resolve ⟨theme.map Theme.node, [], c.allStyles,
    c.attrs.insert "label" (.markup c.label)⟩⟩

namespace Relation

def ends (r : Relation) : String × String := (r.source, r.target)

def mentions (r : Relation) : List String := [r.source, r.target]

def statement (theme : Option Theme) (r : Relation) : Dot.EdgeStatement :=
  ⟨r.source, r.target, Layers.resolve ⟨theme.map Theme.edge, [], [r.kind.style],
    .ofList (optionalAttr "label" r.label)⟩⟩

end Relation

def ClassGraphOptions.theme? (options : ClassGraphOptions) : Option Theme :=
  options.theme.bind Theme.named?

/-- Nothing is drawn yet. -/
def ClassGraphOptions.sheet (options : ClassGraphOptions) : Dot.Document where
  kind := .directed
  name := options.name
  attrs := options.spec.resolve options.theme?
  subgraphs := []
  nodes := []
  edges := []

namespace ClassDiagram

def declared (d : ClassDiagram) : List String := d.classes.map ClassDecl.name

def mentioned (d : ClassDiagram) : List String := d.relations.flatMap Relation.mentions

/-- In the order in which relations first mention them. -/
def undeclared (d : ClassDiagram) : List String := firstsBy id d.declared d.mentioned

def drawnRelations (d : ClassDiagram) : List Relation := firstsBy Relation.ends [] d.relations

def drawing (d : ClassDiagram) (options : ClassGraphOptions) : Dot.Document :=
  { options.sheet with
    nodes :=
      (d.classes.map ClassNode.ofDecl ++ d.undeclared.map ClassNode.plain).map
        (ClassNode.statement options.theme?)
    edges := d.drawnRelations.map (Relation.statement options.theme?) }

end ClassDiagram

namespace Dot.Document

variable {theme : Option Theme} {doc : Dot.Document}

/-- A class that is not shown yet is added as a plain one. -/
def mention (theme : Option Theme) (doc : Document) (name : String) : Document :=
  if name ∈ doc.names then doc else doc.addNode ((ClassNode.plain name).statement theme)

def relate (theme : Option Theme) (doc : Document) (r : Relation) : Document :=
  (r.mentions.foldl (mention theme) doc).addEdge (r.statement theme)

theorem foldl_mention (names : List String) :
    names.foldl (mention theme) doc =
      { doc with nodes := doc.nodes ++
          (firstsBy id doc.names names).map fun n => (ClassNode.plain n).statement theme } := by
  induction names generalizing doc with
  | nil => simp [firstsBy]
  | cons n rest ih =>
    rw [List.foldl_cons, ih, mention, firstsBy, id]
    by_cases hn : n ∈ doc.names
    · rw [if_pos hn, if_pos hn]
    · rw [if_neg hn, if_neg hn, names_addNode]
      simp [addNode, ClassNode.statement, ClassNode.plain]

theorem relate_eq (r : Relation) :
    doc.relate theme r =
      { doc with
        nodes := doc.nodes ++ (firstsBy id doc.names r.mentions).map
          fun n => (ClassNode.plain n).statement theme
        edges := doc.edges ++
          (firstsBy Relation.ends doc.pairs [r]).map (Relation.statement theme) } := by
  have hp : (r.statement theme).ends = r.ends := rfl
  rw [relate, foldl_mention, addEdge, hp]
  show (if r.ends ∈ doc.pairs then _ else _) = _
  by_cases he : r.ends ∈ doc.pairs
  · have hf : firstsBy Relation.ends doc.pairs [r] = [] := if_pos he
    rw [if_pos he, hf, List.map_nil, List.append_nil]
  · have hf : firstsBy Relation.ends doc.pairs [r] = [r] := if_neg he
    rw [if_neg he, hf]
    rfl

theorem foldl_relate (relations : List Relation) :
    relations.foldl (relate theme) doc =
      { doc with
        nodes := doc.nodes ++ (firstsBy id doc.names (relations.flatMap Relation.mentions)).map
          fun n => (ClassNode.plain n).statement theme
        edges := doc.edges ++
          (firstsBy Relation.ends doc.pairs relations).map (Relation.statement theme) } := by
  induction relations generalizing doc with
  | nil => simp [firstsBy]
  | cons r rest ih =>
    have hnames : (doc.relate theme r).names =
        doc.names ++ (firstsBy id doc.names r.mentions).map id := by
      rw [relate_eq]
      simp only [names, List.map_append, List.map_map]
      rfl
    have hpairs : (doc.relate theme r).pairs =
        doc.pairs ++ (firstsBy Relation.ends doc.pairs [r]).map Relation.ends := by
      rw [relate_eq]
      simp only [pairs, List.map_append, List.map_map]
      rfl
    have hfirst : firstsBy Relation.ends doc.pairs ([r] ++ rest) = _ := firstsBy_append
    rw [List.singleton_append] at hfirst
    rw [List.foldl_cons, ih, hnames, hpairs, relate_eq, List.flatMap_cons, firstsBy_append, hfirst]
    simp only [List.map_append, List.append_assoc]

end Dot.Document

end DotDiagram
