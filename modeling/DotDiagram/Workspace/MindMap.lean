import DotDiagram.MindMap
import DotDiagram.Workspace.Attach

/-! Mind maps as graphs: the topic, then each branch with all that is below it. -/

namespace DotDiagram

/-- Entries are named and labelled alike. -/
def MindLevel.spec (level : MindLevel) (label : String) : NodeSpec :=
  { name := some label
    styles := [level.style]
    attrs := .ofList [("label", label)]
    html := none
    markdown := none }

namespace Workspace

mutual

def growEntry (parent : NodeId) (depth : Nat) :
    Outline → Workspace → Except Error Unit × Workspace
  | .mk label children, w =>
    match w.buildNode (((Outline.mk label children).level depth).spec label) with
    | (.error e, w) => (.error e, w)
    | (.ok node, w) =>
      growEntries node (depth + 1) children (w.buildEdge ⟨parent, node, [branchEdge], .empty⟩).2

def growEntries (parent : NodeId) (depth : Nat) :
    List Outline → Workspace → Except Error Unit × Workspace
  | [], w => (.ok (), w)
  | entry :: rest, w =>
    match growEntry parent depth entry w with
    | (.error e, w) => (.error e, w)
    | (.ok (), w) => growEntries parent depth rest w

end

/-- Returns the node of the topic. -/
def buildMindMap (outline : Outline) (w : Workspace) : Except Error NodeId × Workspace :=
  match w.buildNode ((outline.level 0).spec outline.label) with
  | (.error e, w) => (.error e, w)
  | (.ok topic, w) =>
    let (grown, w) := growEntries topic 1 outline.children w
    (grown.map fun () => topic, w)

end Workspace

end DotDiagram
