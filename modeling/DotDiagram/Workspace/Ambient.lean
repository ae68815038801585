import DotDiagram.Theme
import DotDiagram.Workspace.Handle

/-! What is open while a diagram is built: five stacks of entries, innermost first. Each
entry is released by its own guard, and guards should be released in the reverse order
of entering. Graphs and subgraphs share that order. -/

namespace DotDiagram

inductive Slot where
  | nodeStyle | edgeStyle | theme | graph | subgraph
  deriving DecidableEq, Repr

def Slot.name : Slot → String
  | .nodeStyle => "NodeStyle"
  | .edgeStyle => "EdgeStyle"
  | .theme => "Theme"
  | .graph => "Graph"
  | .subgraph => "Subgraph"

/-- Said when an entry is released before one that was entered after it. -/
def Slot.complaint (slot : Slot) : String := slot.name ++ " scope released out of order"

structure Guard where
  slot : Slot
  id : Nat
  deriving DecidableEq

structure Entry (α : Type) where
  id : Nat
  value : α
  deriving DecidableEq

inductive Release where
  | inOrder | outOfOrder | missing
  deriving DecidableEq

/-- Removes an entry, wherever it stands. -/
def releaseFrom {α : Type} (id : Nat) : List (Entry α) → Release × List (Entry α)
  | [] => (.missing, [])
  | e :: rest =>
    if e.id = id then (.inOrder, rest)
    else
      match releaseFrom id rest with
      | (.missing, _) => (.missing, e :: rest)
      | (_, left) => (.outOfOrder, e :: left)

/-- A container that closes while one of the other kind stands open within it is out of
order, too. -/
def releaseContainer {α β : Type} (id : Nat) (stack : List (Entry α)) (other : List (Entry β)) :
    Release × List (Entry α) :=
  match releaseFrom id stack with
  | (.inOrder, left) => (if other.any fun e => id < e.id then .outOfOrder else .inOrder, left)
  | r => r

structure Ambient where
  lastId : Nat
  nodeStyles : List (Entry NodeStyle)
  edgeStyles : List (Entry EdgeStyle)
  themes : List (Entry Theme)
  graphs : List (Entry GraphId)
  subgraphs : List (Entry SubgraphId)
  deriving DecidableEq

namespace Ambient

def empty : Ambient := ⟨0, [], [], [], [], []⟩

def enterNodeStyle (style : NodeStyle) (a : Ambient) : Guard × Ambient :=
  let id := a.lastId + 1
  (⟨.nodeStyle, id⟩, { a with lastId := id, nodeStyles := ⟨id, style⟩ :: a.nodeStyles })

def enterEdgeStyle (style : EdgeStyle) (a : Ambient) : Guard × Ambient :=
  let id := a.lastId + 1
  (⟨.edgeStyle, id⟩, { a with lastId := id, edgeStyles := ⟨id, style⟩ :: a.edgeStyles })

def enterTheme (theme : Theme) (a : Ambient) : Guard × Ambient :=
  let id := a.lastId + 1
  (⟨.theme, id⟩, { a with lastId := id, themes := ⟨id, theme⟩ :: a.themes })

def enterGraph (graph : GraphId) (a : Ambient) : Guard × Ambient :=
  let id := a.lastId + 1
  (⟨.graph, id⟩, { a with lastId := id, graphs := ⟨id, graph⟩ :: a.graphs })

def enterSubgraph (subgraph : SubgraphId) (a : Ambient) : Guard × Ambient :=
  let id := a.lastId + 1
  (⟨.subgraph, id⟩, { a with lastId := id, subgraphs := ⟨id, subgraph⟩ :: a.subgraphs })

def release (guard : Guard) (a : Ambient) : Release × Ambient :=
  match guard.slot with
  | .nodeStyle =>
    let (r, left) := releaseFrom guard.id a.nodeStyles
    (r, { a with nodeStyles := left })
  | .edgeStyle =>
    let (r, left) := releaseFrom guard.id a.edgeStyles
    (r, { a with edgeStyles := left })
  | .theme =>
    let (r, left) := releaseFrom guard.id a.themes
    (r, { a with themes := left })
  | .graph =>
    let (r, left) := releaseContainer guard.id a.graphs a.subgraphs
    (r, { a with graphs := left })
  | .subgraph =>
    let (r, left) := releaseContainer guard.id a.subgraphs a.graphs
    (r, { a with subgraphs := left })

/-- Outermost first. -/
def activeNodeStyles (a : Ambient) : List NodeStyle := (a.nodeStyles.map Entry.value).reverse

def activeEdgeStyles (a : Ambient) : List EdgeStyle := (a.edgeStyles.map Entry.value).reverse

/-- The innermost theme shadows the others. -/
def theme? (a : Ambient) : Option Theme := a.themes.head?.map Entry.value

def graph? (a : Ambient) : Option GraphId := a.graphs.head?.map Entry.value

def subgraph? (a : Ambient) : Option SubgraphId := a.subgraphs.head?.map Entry.value

def isIdle (a : Ambient) : Bool :=
  a.nodeStyles.isEmpty && a.edgeStyles.isEmpty && a.themes.isEmpty && a.graphs.isEmpty &&
    a.subgraphs.isEmpty

def nodeLayers (a : Ambient) (explicit : List NodeStyle) (direct : AttrSet) : Layers .node :=
  ⟨a.theme?.map Theme.node, a.activeNodeStyles, explicit, direct⟩

def edgeLayers (a : Ambient) (explicit : List EdgeStyle) (direct : AttrSet) : Layers .edge :=
  ⟨a.theme?.map Theme.edge, a.activeEdgeStyles, explicit, direct⟩

end Ambient

end DotDiagram
