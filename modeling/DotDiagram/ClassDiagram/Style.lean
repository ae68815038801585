import DotDiagram.AttrSet
import DotDiagram.ClassDiagram.Basic

/-! How classes and relations look. -/

namespace DotDiagram

def classStyle : NodeStyle :=
  .ofList [("shape", "box"), ("style", "filled"), ("fillcolor", "lightblue"),
    ("fontname", "Helvetica")]

def interfaceStyle : NodeStyle :=
  .ofList [("shape", "box"), ("style", "filled"), ("fillcolor", "lightyellow"),
    ("fontname", "Helvetica-Oblique")]

def abstractStyle : NodeStyle :=
  .ofList [("shape", "box"), ("style", "filled"), ("fillcolor", "lightgray"),
    ("fontname", "Helvetica-Oblique")]

def ClassKind.style? : ClassKind → Option NodeStyle
  | .interface => some interfaceStyle
  | .abstract => some abstractStyle
  | .concrete | .enumeration => none

def classGraphStyle : GraphStyle :=
  .ofList [("rankdir", "TB"), ("splines", "ortho"), ("nodesep", .number 0.8),
    ("ranksep", .number 1.0)]

/-- An association, with multiplicities at its ends. -/
structure Association where
  label : Option String
  sourceMultiplicity : Option String
  targetMultiplicity : Option String
  bidirectional : Bool

def Association.plain : Association := ⟨none, none, none, false⟩

def optionalAttr (key : String) (value : Option String) : List (String × AttrValue) :=
  value.toList.map fun v => (key, .text v)

def Association.style (a : Association) : EdgeStyle :=
  let line : List (String × AttrValue) := [("color", "black"), ("penwidth", .number 1.5)]
  let head : String × AttrValue :=
    if a.bidirectional then ("dir", "none") else ("arrowhead", "normal")
  .ofList (line ++ optionalAttr "label" a.label ++ [head] ++
    optionalAttr "taillabel" a.sourceMultiplicity ++ optionalAttr "headlabel" a.targetMultiplicity)

def RelationKind.style : RelationKind → EdgeStyle
  | .inheritance =>
    .ofList [("arrowhead", "empty"), ("color", "black"), ("penwidth", .number 1.5)]
  | .implements =>
    .ofList [("arrowhead", "empty"), ("style", "dashed"), ("color", "black"),
      ("penwidth", .number 1.5)]
  | .composition =>
    .ofList [("arrowhead", "normal"), ("arrowtail", "diamond"), ("dir", "both"),
      ("color", "black"), ("penwidth", .number 1.5)]
  | .aggregation =>
    .ofList [("arrowhead", "normal"), ("arrowtail", "odiamond"), ("dir", "both"),
      ("color", "black"), ("penwidth", .number 1.5)]
  | .association => Association.plain.style
  | .dependency =>
    .ofList [("arrowhead", "vee"), ("style", "dashed"), ("color", "gray"),
      ("penwidth", .number 1.0)]

end DotDiagram
