import DotDiagram.Workspace.Attach

/-! Chains of edges. A chain goes on where it was last led to, and what is said of its
looks holds for the edges made so far. -/

namespace DotDiagram

structure Chain where
  tail : NodeId
  edges : List EdgeId

namespace Chain

def startAt (node : NodeId) : Chain := ⟨node, []⟩

def connect (target : NodeId) (chain : Chain) (w : Workspace) : Chain × Workspace :=
  let (edge, w) := w.buildEdge (.plain chain.tail target)
  (⟨target, chain.edges ++ [edge]⟩, w)

/-- One edge to each target from one source. -/
def fanEdges (source : NodeId) : List NodeId → Workspace → List EdgeId × Workspace
  | [], w => ([], w)
  | target :: rest, w =>
    let (edge, w) := w.buildEdge (.plain source target)
    let (edges, w) := fanEdges source rest w
    (edge :: edges, w)

/-- The last target is where the chain goes on. -/
def connectAll (targets : List NodeId) (chain : Chain) (w : Workspace) : Chain × Workspace :=
  let (edges, w) := fanEdges chain.tail targets w
  (⟨targets.getLast?.getD chain.tail, chain.edges ++ edges⟩, w)

def set (key : String) (value : AttrValue) (chain : Chain) (w : Workspace) : Workspace :=
  chain.edges.foldl (fun w edge => w.setEdge edge key value) w

def update (attrs : AttrSet) (chain : Chain) (w : Workspace) : Workspace :=
  chain.edges.foldl (fun w edge => w.updateEdge edge attrs) w

end Chain

end DotDiagram
