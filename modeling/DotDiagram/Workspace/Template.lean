import DotDiagram.Workspace.Attach
import DotDiagram.Workspace.Container

/-! Templates of groups of nodes. A template names its nodes and says how each one is
specified; it may wrap them in a cluster. -/

namespace DotDiagram

structure Factory where
  name : String
  specify : NodeSpec → NodeSpec

structure Template where
  factories : List Factory
  wrapper : Option String
  wrapperAttrs : List (String × AttrValue)

structure Group where
  nodes : Keyed NodeId
  wrapper : Option SubgraphId

namespace Template

def empty : Template := ⟨[], none, []⟩

def names (t : Template) : List String := t.factories.map Factory.name

def node (t : Template) (name : String) (specify : NodeSpec → NodeSpec) : Template :=
  { t with factories := t.factories ++ [⟨name, specify⟩] }

def plain (t : Template) (name : String) : Template := t.node name id

def defaultWrapper : String := "cluster_group"

def inSubgraph (t : Template) (name : Option String) : Template :=
  { t with wrapper := some (name.getD defaultWrapper) }

def subgraphAttr (t : Template) (key : String) (value : AttrValue) : Template :=
  { t with wrapperAttrs := t.wrapperAttrs ++ [(key, value)] }

/-- The nodes of the base come first. A wrapper of its own is kept. -/
def extend (t base : Template) : Template :=
  { t with factories := base.factories ++ t.factories, wrapper := t.wrapper.or base.wrapper }

/-- The first name that is taken or stands twice. -/
def firstClash (w : Workspace) : List String → List String → Option String
  | _, [] => none
  | seen, name :: rest =>
    if seen.contains name || w.nameTaken name then some name
    else firstClash w (name :: seen) rest

def buildNodes : List Factory → Keyed NodeId → Workspace → Except Error (Keyed NodeId) × Workspace
  | [], nodes, w => (.ok nodes, w)
  | f :: rest, nodes, w =>
    match w.buildNode (f.specify (.named f.name)) with
    | (.error e, w) => (.error e, w)
    | (.ok node, w) => buildNodes rest (nodes.insert f.name node) w

def wrapperSpec (t : Template) (name : String) : SubgraphSpec :=
  { SubgraphSpec.named name with attrs := .ofList t.wrapperAttrs }

/-- The wrapper is closed again whether or not all nodes could be made. -/
def build (t : Template) (w : Workspace) : Except Error Group × Workspace :=
  match firstClash w [] t.names with
  | some name => (.error (.duplicateNode name), w)
  | none =>
    match t.wrapper with
    | none =>
      let (nodes, w) := buildNodes t.factories .empty w
      (nodes.map fun nodes => ⟨nodes, none⟩, w)
    | some name =>
      let (wrapper, w) := w.buildSubgraph (t.wrapperSpec name)
      let (scope, w) := w.enterSubgraph wrapper
      let (nodes, w) := buildNodes t.factories .empty w
      (nodes.map fun nodes => ⟨nodes, some wrapper⟩, (w.leave scope).2)

end Template

/-- A node by the name in the template, or by its own name in the wrapper. -/
def Group.get? (group : Group) (w : Workspace) (name : String) : Option NodeId :=
  (group.nodes.get? name).or
    ((group.wrapper.bind w.subgraph?).bind fun s => s.nodes.get? name)

end DotDiagram
