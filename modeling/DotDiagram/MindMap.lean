import DotDiagram.AttrSet

/-! Outlines of mind maps, and the looks of their levels. -/

namespace DotDiagram

inductive MindLevel where
  | topic | branch | leaf
  deriving DecidableEq, Repr

def MindLevel.style : MindLevel → NodeStyle
  | .topic =>
    .ofList [("shape", "ellipse"), ("style", "filled,rounded"), ("fillcolor", "lightblue"),
      ("fontname", "Helvetica-Bold"), ("fontsize", .integer 16), ("penwidth", .number 2.5)]
  | .branch =>
    .ofList [("shape", "box"), ("style", "filled,rounded"), ("fillcolor", "lightgreen"),
      ("fontname", "Helvetica"), ("fontsize", .integer 12), ("penwidth", .number 1.5)]
  | .leaf =>
    .ofList [("shape", "box"), ("style", "filled,rounded"), ("fillcolor", "lightyellow"),
      ("fontname", "Helvetica"), ("fontsize", .integer 10), ("penwidth", .number 1.0)]

def branchEdge : EdgeStyle :=
  .ofList [("dir", "none"), ("penwidth", .number 2.0), ("color", "gray40")]

def mindMapGraph : GraphStyle :=
  .ofList [("rankdir", "LR"), ("splines", "curved"), ("nodesep", .number 0.6),
    ("ranksep", .number 1.2)]

/-- For radial layout. -/
def radialMindMapGraph : GraphStyle :=
  .ofList [("layout", "twopi"), ("splines", "curved"), ("ranksep", .number 2.0),
    ("nodesep", .number 1.0)]

/-- Labels name the nodes, so they have to differ within a graph. -/
inductive Outline where
  | mk (label : String) (children : List Outline)

namespace Outline

def label : Outline → String
  | mk label _ => label

def children : Outline → List Outline
  | mk _ children => children

def leaf (label : String) : Outline := mk label []

/-- Entries right below the topic are branches; deeper ones are leaves when nothing
is below them. -/
def level (depth : Nat) (outline : Outline) : MindLevel :=
  match depth with
  | 0 => .topic
  | 1 => .branch
  | _ => if outline.children.isEmpty then .leaf else .branch

end Outline

end DotDiagram
