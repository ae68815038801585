/-! The ways in which building, reading and laying out a diagram fail. -/

namespace DotDiagram

inductive Error where
  | conflictingLabels
  | nestedGraph (outer inner : String)
  | duplicateNode (name : String)
  | unexpected (found : String)
  | programNotFound (program : String)
  | programFailed (complaint : String)
  | system (complaint : String)
  deriving DecidableEq, Repr

def Error.message : Error → String
  | .conflictingLabels => "node `html` and `markdown` labels are mutually exclusive"
  | .nestedGraph outer inner =>
    "graph `" ++ inner ++ "` cannot be entered while graph `" ++ outer ++ "` is current"
  | .duplicateNode name => "duplicate node name: " ++ name
  | .unexpected found => "syntax error in class diagram: unexpected `" ++ found ++ "`"
  | .programNotFound program => "layout program `" ++ program ++ "` not found"
  | .programFailed complaint => "layout program failed: " ++ complaint
  | .system complaint => complaint

end DotDiagram
