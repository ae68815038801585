import DotDiagram.ClassDiagram.Label
import DotDiagram.ClassDiagram.Reader
import DotDiagram.Workspace.Attach
import DotDiagram.Workspace.Container

/-! Class diagrams as graphs: declared classes first, then relations, each after the
classes that it mentions and nobody declared. -/

namespace DotDiagram

def ClassNode.spec (c : ClassNode) : NodeSpec :=
  { name := some c.name
    styles := c.allStyles
    attrs := c.attrs
    html := some c.label
    markdown := none }

namespace Workspace

def relate (source target : NodeId) (kind : RelationKind) (label : Option String)
    (w : Workspace) : EdgeId × Workspace :=
  w.buildEdge ⟨source, target, [kind.style], .ofList (optionalAttr "label" label)⟩

def buildClasses : List ClassDecl → Keyed NodeId → Workspace →
    Except Error (Keyed NodeId) × Workspace
  | [], nodes, w => (.ok nodes, w)
  | c :: rest, nodes, w =>
    match w.buildNode (ClassNode.ofDecl c).spec with
    | (.error e, w) => (.error e, w)
    | (.ok node, w) => buildClasses rest (nodes.insert c.name node) w

/-- The node of a class, made plain if there is none. -/
def classNamed (name : String) (nodes : Keyed NodeId) (w : Workspace) :
    Except Error (NodeId × Keyed NodeId) × Workspace :=
  match nodes.get? name with
  | some node => (.ok (node, nodes), w)
  | none =>
    match w.buildNode (ClassNode.plain name).spec with
    | (.error e, w) => (.error e, w)
    | (.ok node, w) => (.ok (node, nodes.insert name node), w)

def buildRelations : List Relation → Keyed NodeId → Workspace →
    Except Error (Keyed NodeId) × Workspace
  | [], nodes, w => (.ok nodes, w)
  | r :: rest, nodes, w =>
    match w.classNamed r.source nodes with
    | (.error e, w) => (.error e, w)
    | (.ok (source, nodes), w) =>
      match w.classNamed r.target nodes with
      | (.error e, w) => (.error e, w)
      | (.ok (target, nodes), w) =>
        buildRelations rest nodes (w.relate source target r.kind r.label).2

def buildClassDiagram (diagram : ClassDiagram) (w : Workspace) :
    Except Error (Keyed NodeId) × Workspace :=
  match buildClasses diagram.classes .empty w with
  | (.error e, w) => (.error e, w)
  | (.ok nodes, w) => buildRelations diagram.relations nodes w

end Workspace

structure ClassGraphOptions where
  name : String
  theme : Option String
  rankDir : Option RankDir

def ClassGraphOptions.default : ClassGraphOptions := ⟨"classes", none, none⟩

def ClassGraphOptions.calls (options : ClassGraphOptions) : List GraphCall :=
  .style classGraphStyle ::
    ((options.theme.map GraphCall.theme).toList ++ (options.rankDir.map GraphCall.rankDir).toList)

def ClassGraphOptions.spec (options : ClassGraphOptions) : GraphSpec :=
  .ofCalls options.name options.calls

theorem ClassGraphOptions.spec_eq (options : ClassGraphOptions) :
    options.spec = ⟨options.name, .directed, options.theme.map .named, [classGraphStyle],
      options.rankDir, .empty⟩ := by
  obtain ⟨name, theme, dir⟩ := options
  cases theme <;> cases dir <;> rfl

/-- A graph of its own for a diagram. It is closed again whether or not the diagram
could be built. -/
def Workspace.buildClassGraph (diagram : ClassDiagram) (options : ClassGraphOptions)
    (w : Workspace) : Except Error GraphId × Workspace :=
  let (graph, w) := w.buildGraph options.spec
  match w.enterGraph graph with
  | (.error e, w) => (.error e, w)
  | (.ok scope, w) =>
    let (nodes, w) := w.buildClassDiagram diagram
    (nodes.map fun _ => graph, (w.leave scope).2)

/-- The document of a class diagram given as text. -/
def Workspace.renderClassDiagram (text : String) (options : ClassGraphOptions) (w : Workspace) :
    Except Error String :=
  match ClassDiagram.ofText text with
  | .error e => .error e
  | .ok diagram =>
    match w.buildClassGraph diagram options with
    | (.error e, _) => .error e
    | (.ok graph, w) => .ok ((w.dot? graph).getD "")

def renderClassDiagram (text : String) (options : ClassGraphOptions) : Except Error String :=
  Workspace.empty.renderClassDiagram text options

end DotDiagram
