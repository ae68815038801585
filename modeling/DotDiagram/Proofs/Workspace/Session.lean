import Mathlib.Logic.Relation
import DotDiagram.Workspace.Chain
import DotDiagram.Workspace.ClassGraph
import DotDiagram.Workspace.MindMap
import DotDiagram.Workspace.Template

/-! Sessions: a workspace with the scopes that someone holds open in it. A session goes
on by an operation, by opening a scope, or by dropping any of the scopes held; a dropped
scope is never held again. -/

namespace DotDiagram

/-- All that can be done to a workspace besides opening and closing scopes. -/
inductive Operation where
  | graph (spec : GraphSpec)
  | subgraph (spec : SubgraphSpec)
  | node (spec : NodeSpec)
  | edge (spec : EdgeSpec)
  | relate (source target : NodeId) (kind : RelationKind) (label : Option String)
  | connect (target : NodeId) (chain : Chain)
  | connectAll (targets : List NodeId) (chain : Chain)
  | setChain (key : String) (value : AttrValue) (chain : Chain)
  | updateChain (attrs : AttrSet) (chain : Chain)
  | setNode (id : NodeId) (key : String) (value : AttrValue)
  | updateNode (id : NodeId) (attrs : AttrSet)
  | setEdge (id : EdgeId) (key : String) (value : AttrValue)
  | updateEdge (id : EdgeId) (attrs : AttrSet)
  | setSubgraph (id : SubgraphId) (key : String) (value : AttrValue)
  | setGraph (id : GraphId) (key : String) (value : AttrValue)
  | template (t : Template)
  | classDiagram (diagram : ClassDiagram)
  | classGraph (diagram : ClassDiagram) (options : ClassGraphOptions)
  | mindMap (outline : Outline)

/-- The workspace after an operation, whether or not it succeeds. -/
def Workspace.perform (w : Workspace) : Operation → Workspace
  | .graph spec => (w.buildGraph spec).2
  | .subgraph spec => (w.buildSubgraph spec).2
  | .node spec => (w.buildNode spec).2
  | .edge spec => (w.buildEdge spec).2
  | .relate source target kind label => (w.relate source target kind label).2
  | .connect target chain => (chain.connect target w).2
  | .connectAll targets chain => (chain.connectAll targets w).2
  | .setChain key value chain => chain.set key value w
  | .updateChain attrs chain => chain.update attrs w
  | .setNode id key value => w.setNode id key value
  | .updateNode id attrs => w.updateNode id attrs
  | .setEdge id key value => w.setEdge id key value
  | .updateEdge id attrs => w.updateEdge id attrs
  | .setSubgraph id key value => w.setSubgraph id key value
  | .setGraph id key value => w.setGraph id key value
  | .template t => (t.build w).2
  | .classDiagram diagram => (w.buildClassDiagram diagram).2
  | .classGraph diagram options => (w.buildClassGraph diagram options).2
  | .mindMap outline => (w.buildMindMap outline).2

namespace Workspace

def HasNode (w : Workspace) (id : NodeId) : Prop := id.index < w.nodes.size

def HasEdge (w : Workspace) (id : EdgeId) : Prop := id.index < w.edges.size

def HasSubgraph (w : Workspace) (id : SubgraphId) : Prop := id.index < w.subgraphs.size

def HasGraph (w : Workspace) (id : GraphId) : Prop := id.index < w.graphs.size

def HasChain (w : Workspace) (chain : Chain) : Prop :=
  w.HasNode chain.tail ∧ ∀ edge ∈ chain.edges, w.HasEdge edge

end Workspace

/-- Handles come from the making of a thing, so they name things that exist. -/
def Operation.Known (w : Workspace) : Operation → Prop
  | .edge spec => w.HasNode spec.source ∧ w.HasNode spec.target
  | .relate source target _ _ => w.HasNode source ∧ w.HasNode target
  | .connect target chain => w.HasNode target ∧ w.HasChain chain
  | .connectAll targets chain => (∀ target ∈ targets, w.HasNode target) ∧ w.HasChain chain
  | .setChain _ _ chain | .updateChain _ chain => w.HasChain chain
  | .setNode id _ _ | .updateNode id _ => w.HasNode id
  | .setEdge id _ _ | .updateEdge id _ => w.HasEdge id
  | .setSubgraph id _ _ => w.HasSubgraph id
  | .setGraph id _ _ => w.HasGraph id
  | .graph _ | .subgraph _ | .node _ | .template _ | .classDiagram _ | .classGraph _ _
  | .mindMap _ => True

/-- What is put on one of the stacks. -/
inductive Opening where
  | nodeStyle (style : NodeStyle)
  | edgeStyle (style : EdgeStyle)
  | theme (theme : Theme)
  | graph (id : GraphId)
  | subgraph (id : SubgraphId)

namespace Opening

def slot : Opening → Slot
  | .nodeStyle _ => .nodeStyle
  | .edgeStyle _ => .edgeStyle
  | .theme _ => .theme
  | .graph _ => .graph
  | .subgraph _ => .subgraph

def Known (w : Workspace) : Opening → Prop
  | .graph id => w.HasGraph id
  | .subgraph id => w.HasSubgraph id
  | .nodeStyle _ | .edgeStyle _ | .theme _ => True

/-- The theme that a container enters before itself. -/
def themeOf (w : Workspace) : Opening → Option Theme
  | .graph id => (w.graph? id).bind Graph.theme
  | .subgraph id => (w.subgraph? id).bind Subgraph.theme
  | .nodeStyle _ | .edgeStyle _ | .theme _ => none

end Opening

namespace Workspace

def enter (w : Workspace) : Opening → Except Error Scope × Workspace
  | .nodeStyle style => (.ok ⟨(w.enterNodeStyle style).1, none⟩, (w.enterNodeStyle style).2)
  | .edgeStyle style => (.ok ⟨(w.enterEdgeStyle style).1, none⟩, (w.enterEdgeStyle style).2)
  | .theme theme => (.ok ⟨(w.enterTheme theme).1, none⟩, (w.enterTheme theme).2)
  | .graph id => w.enterGraph id
  | .subgraph id => (.ok (w.enterSubgraph id).1, (w.enterSubgraph id).2)

/-- A guard that is dropped out of order raises a panic, except while one is being
unwound. -/
def dropGuard (unwinding : Bool) (guard : Guard) (w : Workspace) : Option Slot × Workspace :=
  let (fault, w) := w.release guard
  (if unwinding then none else fault, w)

/-- The guard of a container is dropped before that of its theme, which is dropped also
while a panic of the first is unwound. -/
def dropScope (unwinding : Bool) (scope : Scope) (w : Workspace) : Option Slot × Workspace :=
  let (panic, w) := w.dropGuard unwinding scope.container
  match scope.theme with
  | none => (panic, w)
  | some theme =>
    let (later, w) := w.dropGuard (unwinding || panic.isSome) theme
    (panic.or later, w)

theorem dropScope_eq_leave (unwinding : Bool) (scope : Scope) (w : Workspace) :
    w.dropScope unwinding scope =
      (if unwinding then none else (w.leave scope).1, (w.leave scope).2) := by
  obtain ⟨container, theme⟩ := scope
  cases theme with
  | none => rfl
  | some theme =>
    simp only [dropScope, dropGuard, leave]
    cases unwinding with
    | true => rfl
    | false => cases (w.release container).1 <;> rfl

end Workspace

/-- An entry of a stack, with the id of the guard that releases it. -/
structure Entered where
  id : Nat
  opening : Opening

def Entered.guard (e : Entered) : Guard := ⟨e.opening.slot, e.id⟩

/-- A scope as it is held: its own entry, and that of the theme entered before it. -/
structure Held where
  own : Entered
  theme : Option Entered

namespace Held

def scope (held : Held) : Scope := ⟨held.own.guard, held.theme.map Entered.guard⟩

def entries (held : Held) : List Entered := held.theme.toList ++ [held.own]

end Held

/-- The scopes held stand in the order of their opening. All panics raised so far are
kept, too. -/
structure Session where
  workspace : Workspace
  held : List Held
  panics : List Slot

namespace Session

def start : Session := ⟨.empty, [], []⟩

def entries (s : Session) : List Entered := s.held.flatMap Held.entries

def perform (s : Session) (op : Operation) : Session :=
  { s with workspace := s.workspace.perform op }

/-- The scope of `held` is dropped; `others` are those still held. -/
def drop (s : Session) (unwinding : Bool) (held : Held) (others : List Held) : Session :=
  { workspace := (s.workspace.dropScope unwinding held.scope).2
    held := others
    panics := s.panics ++ (s.workspace.dropScope unwinding held.scope).1.toList }

inductive Opens (s : Session) : Opening → Session → Prop where
  | intro {opening : Opening} {held : Held} {w : Workspace}
      (known : opening.Known s.workspace)
      (entered : s.workspace.enter opening = (.ok held.scope, w))
      (own : held.own.opening = opening)
      (theme : held.theme.map Entered.opening = (opening.themeOf s.workspace).map .theme) :
      Opens s opening { s with workspace := w, held := s.held ++ [held] }

inductive Step (s : Session) : Session → Prop where
  | operation (op : Operation) (known : op.Known s.workspace) : Step s (s.perform op)
  | opened {opening : Opening} {t : Session} (h : s.Opens opening t) : Step s t
  | refused {opening : Opening} {e : Error} {w : Workspace} (known : opening.Known s.workspace)
      (h : s.workspace.enter opening = (.error e, w)) : Step s { s with workspace := w }
  | dropped {before after : List Held} {held : Held} (unwinding : Bool)
      (h : s.held = before ++ held :: after) : Step s (s.drop unwinding held (before ++ after))

abbrev Reachable (s : Session) : Prop := Relation.ReflTransGen Step start s

/-- A stretch of a session in which all that is opened is closed again, in the reverse
order of opening. -/
inductive Block : Session → Session → Prop where
  | refl (s : Session) : Block s s
  | operation {s t : Session} (op : Operation) (h : Block s t) (known : op.Known t.workspace) :
      Block s (t.perform op)
  | refused {s t : Session} {opening : Opening} {e : Error} {w : Workspace} (h : Block s t)
      (known : opening.Known t.workspace) (he : t.workspace.enter opening = (.error e, w)) :
      Block s { t with workspace := w }
  | scope {s t u v : Session} {opening : Opening} {outer : List Held} {held : Held}
      (unwinding : Bool) (h : Block s t) (opens : t.Opens opening u) (inner : Block u v)
      (last : v.held = outer ++ [held]) : Block s (v.drop unwinding held outer)

end Session

end DotDiagram
