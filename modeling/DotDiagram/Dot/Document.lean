import DotDiagram.AttrSet

/-! Documents: what a graph's text says. -/

namespace DotDiagram

inductive GraphKind where
  | directed | undirected
  deriving DecidableEq, Repr, Inhabited

def GraphKind.keyword : GraphKind → String
  | .directed => "digraph"
  | .undirected => "graph"

def GraphKind.connector : GraphKind → String
  | .directed => "->"
  | .undirected => "--"

namespace Dot

structure NodeStatement where
  name : String
  attrs : AttrSet
  deriving DecidableEq

structure EdgeStatement where
  source : String
  target : String
  attrs : AttrSet
  deriving DecidableEq

inductive SubgraphStatement where
  | mk (name : String) (attrs : AttrSet) (nodes : List NodeStatement)
    (edges : List EdgeStatement) (subgraphs : List SubgraphStatement)

structure Document where
  kind : GraphKind
  name : String
  attrs : AttrSet
  subgraphs : List SubgraphStatement
  nodes : List NodeStatement
  edges : List EdgeStatement

end Dot

end DotDiagram
