import DotDiagram.AttrSet
import DotDiagram.RankDir

/-! Ready-made styles for common looks of nodes, edges and graphs. -/

namespace DotDiagram.Presets

def boxNode : NodeStyle :=
  .ofList [("shape", "box"), ("style", "filled"), ("fillcolor", "lightblue")]

def roundedBox : NodeStyle :=
  .ofList [("shape", "box"), ("style", "filled,rounded"), ("fillcolor", "lightgray")]

def circleNode : NodeStyle :=
  .ofList [("shape", "circle"), ("style", "filled"), ("fillcolor", "lightblue")]

def diamondNode : NodeStyle :=
  .ofList [("shape", "diamond"), ("style", "filled"), ("fillcolor", "yellow")]

def recordNode : NodeStyle :=
  .ofList [("shape", "record"), ("style", "filled"), ("fillcolor", "white")]

def invisibleNode : NodeStyle := .ofList [("style", "invis")]

def decisionNode : NodeStyle := diamondNode

def processNode : NodeStyle := boxNode

/-- The start or the end of a flow. -/
def terminalNode : NodeStyle :=
  .ofList [("shape", "ellipse"), ("style", "filled"), ("fillcolor", "lightgray")]

def dataNode : NodeStyle :=
  .ofList [("shape", "parallelogram"), ("style", "filled"), ("fillcolor", "lightyellow")]

def dashedEdge : EdgeStyle := .ofList [("style", "dashed")]

def dottedEdge : EdgeStyle := .ofList [("style", "dotted")]

def boldEdge : EdgeStyle := .ofList [("style", "bold"), ("penwidth", .integer 2)]

def redEdge : EdgeStyle := .ofList [("color", "red")]

def blueEdge : EdgeStyle := .ofList [("color", "blue")]

def greenEdge : EdgeStyle := .ofList [("color", "green")]

def noArrow : EdgeStyle := .ofList [("arrowhead", "none")]

def bidirectional : EdgeStyle := .ofList [("dir", "both")]

def leftRightGraph : GraphStyle := .ofList [("rankdir", RankDir.leftRight.name)]

def topBottomGraph : GraphStyle := .ofList [("rankdir", RankDir.topBottom.name)]

def compactGraph : GraphStyle := .ofList [("nodesep", .number 0.3), ("ranksep", .number 0.3)]

def spacedGraph : GraphStyle := .ofList [("nodesep", .number 1.0), ("ranksep", .number 1.0)]

end DotDiagram.Presets
