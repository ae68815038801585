import DotDiagram.Proofs.Layers
import DotDiagram.Workspace.Container
import Mathlib.Data.List.Induction

/-! Graphs asked for call by call. Of themes, kinds and directions the last one counts, styles
and attributes add up. The attributes of the graph obey a law of their own: the direction
stands above the styles and below what is written directly, and there is always one. -/

namespace DotDiagram

namespace GraphCall

def kind? : GraphCall → Option GraphKind
  | .kind k => some k
  | _ => none

def given : GraphCall → List GraphStyle
  | .style s => [s]
  | .styles list => list
  | _ => []

def written : GraphCall → List (String × AttrValue)
  | .attr key value => [(key, value)]
  | .attrs set => set.toList
  | _ => []

end GraphCall

end DotDiagram
