import DotDiagram.AttrSet

/-! Themes: named defaults for graphs, nodes and edges. -/

namespace DotDiagram

structure Theme where
  name : String
  graph : GraphStyle
  node : NodeStyle
  edge : EdgeStyle
  deriving DecidableEq

namespace Theme

def default : Theme where
  name := "default"
  graph := .ofList [("bgcolor", "white"), ("fontname", "Helvetica")]
  node := .ofList [("shape", "box"), ("style", "filled,rounded"), ("fillcolor", "lightblue"),
    ("fontname", "Helvetica"), ("penwidth", .integer 1)]
  edge := .ofList [("color", "gray"), ("fontname", "Helvetica")]

def dark : Theme where
  name := "dark"
  graph := .ofList [("bgcolor", "#2d2d2d"), ("fontname", "Helvetica"), ("fontcolor", "white")]
  node := .ofList [("shape", "box"), ("style", "filled,rounded"), ("fillcolor", "#4d4d4d"),
    ("fontcolor", "white"), ("color", "lightgray"), ("fontname", "Helvetica")]
  edge := .ofList [("color", "lightgray"), ("fontcolor", "lightgray"), ("fontname", "Helvetica")]

def pastel : Theme where
  name := "pastel"
  graph := .ofList [("bgcolor", "#fdfbf7"), ("fontname", "Comic Sans MS")]
  node := .ofList [("shape", "ellipse"), ("style", "filled"), ("fillcolor", "#ffb7b2"),
    ("color", "#ffb7b2"), ("fontname", "Comic Sans MS")]
  edge := .ofList [("color", "#aac7d8"), ("penwidth", .integer 2), ("fontname", "Comic Sans MS")]

def blueprint : Theme where
  name := "blueprint"
  graph := .ofList [("bgcolor", "#1a237e"), ("fontcolor", "white"), ("fontname", "Courier")]
  node := .ofList [("shape", "box"), ("style", "filled"), ("fillcolor", "#1a237e"),
    ("color", "white"), ("fontcolor", "white"), ("penwidth", .integer 2), ("fontname", "Courier")]
  edge := .ofList [("color", "white"), ("style", "dashed"), ("fontcolor", "white"),
    ("fontname", "Courier")]

def forest : Theme where
  name := "forest"
  graph := .ofList [("bgcolor", "#e8f5e9"), ("fontname", "Times-Roman")]
  node := .ofList [("shape", "circle"), ("style", "filled"), ("fillcolor", "#a5d6a7"),
    ("color", "#2e7d32"), ("fontcolor", "#1b5e20"), ("fontname", "Times-Roman")]
  edge := .ofList [("color", "#5d4037"), ("penwidth", .number 1.5), ("fontname", "Times-Roman")]

def ocean : Theme where
  name := "ocean"
  graph := .ofList [("bgcolor", "#e0f7fa"), ("fontname", "Helvetica")]
  node := .ofList [("shape", "box"), ("style", "filled,rounded"), ("fillcolor", "#4dd0e1"),
    ("color", "#006064"), ("fontcolor", "#006064"), ("fontname", "Helvetica")]
  edge := .ofList [("color", "#0277bd"), ("fontcolor", "#0277bd"), ("fontname", "Helvetica")]

def minimal : Theme where
  name := "minimal"
  graph := .ofList [("bgcolor", "white"), ("fontname", "Helvetica")]
  node := .ofList [("shape", "box"), ("style", "solid"), ("color", "black"),
    ("fontcolor", "black"), ("penwidth", .integer 1), ("fontname", "Helvetica")]
  edge := .ofList [("color", "black"), ("fontcolor", "black"), ("fontname", "Helvetica")]

def builtin : List Theme := [default, dark, pastel, blueprint, forest, ocean, minimal]

def named? (name : String) : Option Theme := builtin.find? fun theme => theme.name == name

end Theme

/-- A theme is chosen by the name of a builtin one or given whole. -/
inductive ThemeChoice where
  | named (name : String)
  | custom (theme : Theme)

/-- An unknown name chooses nothing. -/
def ThemeChoice.theme? : ThemeChoice → Option Theme
  | .named name => Theme.named? name
  | .custom theme => some theme

end DotDiagram
