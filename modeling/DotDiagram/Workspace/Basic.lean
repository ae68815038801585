import DotDiagram.Dot.Writer
import DotDiagram.Workspace.Ambient

/-! A workspace: all nodes, edges, subgraphs and graphs made so far, and what is open.
Things stay where they are once made; they are known by their handles, and what a handle
names may be restyled at any time. -/

namespace DotDiagram

structure Node where
  name : String
  attrs : AttrSet
  attached : Bool
  deriving DecidableEq

structure Edge where
  source : NodeId
  target : NodeId
  attrs : AttrSet
  attached : Bool
  deriving DecidableEq

structure Subgraph where
  name : String
  cluster : Bool
  theme : Option Theme
  attrs : AttrSet
  nodes : Keyed NodeId
  edges : List EdgeId
  subgraphs : List SubgraphId
  deriving DecidableEq

/-- A graph claims the names of nodes, and the pairs of names of edges, that are made
while it is open. -/
structure Graph where
  name : String
  kind : GraphKind
  theme : Option Theme
  attrs : AttrSet
  nodes : List NodeId
  edges : List EdgeId
  subgraphs : List SubgraphId
  claimedNodes : List String
  claimedEdges : List (String × String)
  deriving DecidableEq

structure Workspace where
  nodes : Array Node
  edges : Array Edge
  subgraphs : Array Subgraph
  graphs : Array Graph
  ambient : Ambient
  nodeNumber : Nat
  deriving DecidableEq

namespace Workspace

def empty : Workspace := ⟨#[], #[], #[], #[], .empty, 0⟩

def node? (w : Workspace) (id : NodeId) : Option Node := w.nodes[id.index]?

def edge? (w : Workspace) (id : EdgeId) : Option Edge := w.edges[id.index]?

def subgraph? (w : Workspace) (id : SubgraphId) : Option Subgraph := w.subgraphs[id.index]?

def graph? (w : Workspace) (id : GraphId) : Option Graph := w.graphs[id.index]?

def nodeName (w : Workspace) (id : NodeId) : String := ((w.node? id).map Node.name).getD ""

/-- The names that an edge connects. -/
def edgeKey (w : Workspace) (edge : Edge) : String × String :=
  (w.nodeName edge.source, w.nodeName edge.target)

def edgeKeyOf? (w : Workspace) (id : EdgeId) : Option (String × String) :=
  (w.edge? id).map w.edgeKey

def modifyNode (w : Workspace) (id : NodeId) (f : Node → Node) : Workspace :=
  { w with nodes := w.nodes.modify id.index f }

def modifyEdge (w : Workspace) (id : EdgeId) (f : Edge → Edge) : Workspace :=
  { w with edges := w.edges.modify id.index f }

def modifySubgraph (w : Workspace) (id : SubgraphId) (f : Subgraph → Subgraph) : Workspace :=
  { w with subgraphs := w.subgraphs.modify id.index f }

def modifyGraph (w : Workspace) (id : GraphId) (f : Graph → Graph) : Workspace :=
  { w with graphs := w.graphs.modify id.index f }

def setNode (id : NodeId) (key : String) (value : AttrValue) (w : Workspace) : Workspace :=
  w.modifyNode id fun node => { node with attrs := node.attrs.insert key value }

def updateNode (id : NodeId) (attrs : AttrSet) (w : Workspace) : Workspace :=
  w.modifyNode id fun node => { node with attrs := node.attrs.merge attrs }

def setEdge (id : EdgeId) (key : String) (value : AttrValue) (w : Workspace) : Workspace :=
  w.modifyEdge id fun edge => { edge with attrs := edge.attrs.insert key value }

def updateEdge (id : EdgeId) (attrs : AttrSet) (w : Workspace) : Workspace :=
  w.modifyEdge id fun edge => { edge with attrs := edge.attrs.merge attrs }

def setSubgraph (id : SubgraphId) (key : String) (value : AttrValue) (w : Workspace) :
    Workspace :=
  w.modifySubgraph id fun s => { s with attrs := s.attrs.insert key value }

def setGraph (id : GraphId) (key : String) (value : AttrValue) (w : Workspace) : Workspace :=
  w.modifyGraph id fun g => { g with attrs := g.attrs.insert key value }

/-- A node of a subgraph or of those within it. Subgraphs stand only in ones made before
them, so none is nested deeper than there are subgraphs. -/
def findWithin (w : Workspace) (name : String) : Nat → SubgraphId → Option NodeId
  | 0, _ => none
  | fuel + 1, id =>
    match w.subgraph? id with
    | none => none
    | some s => (s.nodes.get? name).or (s.subgraphs.findSome? (w.findWithin name fuel))

def findInSubgraph (w : Workspace) (id : SubgraphId) (name : String) : Option NodeId :=
  w.findWithin name w.subgraphs.size id

/-- A node of a graph, at its top level or in a subgraph. -/
def findInGraph (w : Workspace) (id : GraphId) (name : String) : Option NodeId :=
  match w.graph? id with
  | none => none
  | some g =>
    (g.nodes.find? fun n => w.nodeName n == name).or
      (g.subgraphs.findSome? fun s => w.findInSubgraph s name)

def nodeStatement (w : Workspace) (id : NodeId) : Option Dot.NodeStatement :=
  (w.node? id).map fun node => ⟨node.name, node.attrs⟩

def edgeStatement (w : Workspace) (id : EdgeId) : Option Dot.EdgeStatement :=
  (w.edge? id).map fun edge => ⟨w.nodeName edge.source, w.nodeName edge.target, edge.attrs⟩

def subgraphStatement (w : Workspace) : Nat → SubgraphId → Option Dot.SubgraphStatement
  | 0, _ => none
  | fuel + 1, id =>
    (w.subgraph? id).map fun s =>
      .mk s.name s.attrs (s.nodes.values.filterMap w.nodeStatement)
        (s.edges.filterMap w.edgeStatement)
        (s.subgraphs.filterMap (w.subgraphStatement fuel))

/-- What a graph says at present. -/
def document? (w : Workspace) (id : GraphId) : Option Dot.Document :=
  (w.graph? id).map fun g =>
    { kind := g.kind
      name := g.name
      attrs := g.attrs
      subgraphs := g.subgraphs.filterMap (w.subgraphStatement w.subgraphs.size)
      nodes := g.nodes.filterMap w.nodeStatement
      edges := g.edges.filterMap w.edgeStatement }

def dot? (w : Workspace) (id : GraphId) : Option String := (w.document? id).map Dot.Document.text

end Workspace

end DotDiagram
