import DotDiagram.Error
import DotDiagram.Markdown
import DotDiagram.Workspace.Basic

/-! Making nodes and edges. What is made goes to the innermost open subgraph, or to the
open graph if no subgraph is open. An open graph sees to it that no node name and no pair
of names is used twice in all of its document; else the subgraph looks into itself. -/

namespace DotDiagram

structure NodeSpec where
  name : Option String
  styles : List NodeStyle
  attrs : AttrSet
  html : Option String
  markdown : Option String

namespace NodeSpec

def anonymous : NodeSpec := ⟨none, [], .empty, none, none⟩

def named (name : String) : NodeSpec := { anonymous with name := some name }

/-- The direct attributes with the label, if it is written in markup or Markdown. -/
def directAttrs (spec : NodeSpec) : Except Error AttrSet :=
  match spec.html, spec.markdown with
  | some _, some _ => .error .conflictingLabels
  | some body, none => .ok (spec.attrs.insert "label" (.markup body))
  | none, some text => .ok (spec.attrs.insert "label" (Markdown.label text))
  | none, none => .ok spec.attrs

end NodeSpec

structure EdgeSpec where
  source : NodeId
  target : NodeId
  styles : List EdgeStyle
  attrs : AttrSet

def EdgeSpec.plain (source target : NodeId) : EdgeSpec := ⟨source, target, [], .empty⟩

namespace Workspace

/-- Whether a node of this name would be refused. -/
def nameTaken (w : Workspace) (name : String) : Bool :=
  match w.ambient.graph?, w.ambient.subgraph? with
  | some g, _ => ((w.graph? g).map (·.claimedNodes.contains name)).getD false
  | none, some s => (w.findInSubgraph s name).isSome
  | none, none => false

def claimName (name : String) (w : Workspace) : Workspace :=
  match w.ambient.graph? with
  | some g => w.modifyGraph g fun g => { g with claimedNodes := name :: g.claimedNodes }
  | none => w

def listNode (id : NodeId) (name : String) (w : Workspace) : Workspace :=
  match w.ambient.subgraph?, w.ambient.graph? with
  | some s, _ => w.modifySubgraph s fun s => { s with nodes := s.nodes.insert name id }
  | none, some g => w.modifyGraph g fun g => { g with nodes := g.nodes ++ [id] }
  | none, none => w

def containerOpen (w : Workspace) : Bool :=
  w.ambient.graph?.isSome || w.ambient.subgraph?.isSome

/-- Nodes without a name are numbered. -/
def takeName (name : Option String) (w : Workspace) : String × Workspace :=
  match name with
  | some name => (name, w)
  | none => ("node_" ++ toString w.nodeNumber, { w with nodeNumber := w.nodeNumber + 1 })

def buildNode (spec : NodeSpec) (w : Workspace) : Except Error NodeId × Workspace :=
  match spec.directAttrs with
  | .error e => (.error e, w)
  | .ok direct =>
    let (name, w) := w.takeName spec.name
    if w.nameTaken name then (.error (.duplicateNode name), w)
    else
      let id : NodeId := ⟨w.nodes.size⟩
      let attrs := (w.ambient.nodeLayers spec.styles direct).resolve
      let w := { w with nodes := w.nodes.push ⟨name, attrs, w.containerOpen⟩ }
      (.ok id, (w.claimName name).listNode id name)

/-- Whether an edge between these names would be left out. -/
def pairTaken (w : Workspace) (key : String × String) : Bool :=
  match w.ambient.graph?, w.ambient.subgraph? with
  | some g, _ => ((w.graph? g).map (·.claimedEdges.contains key)).getD false
  | none, some s =>
    ((w.subgraph? s).map fun s => s.edges.any fun e => w.edgeKeyOf? e == some key).getD false
  | none, none => false

def claimPair (key : String × String) (w : Workspace) : Workspace :=
  match w.ambient.graph? with
  | some g => w.modifyGraph g fun g => { g with claimedEdges := key :: g.claimedEdges }
  | none => w

def listEdge (id : EdgeId) (w : Workspace) : Workspace :=
  match w.ambient.subgraph?, w.ambient.graph? with
  | some s, _ => w.modifySubgraph s fun s => { s with edges := s.edges ++ [id] }
  | none, some g => w.modifyGraph g fun g => { g with edges := g.edges ++ [id] }
  | none, none => w

/-- An edge between names that are already connected is made, but not listed. -/
def buildEdge (spec : EdgeSpec) (w : Workspace) : EdgeId × Workspace :=
  let id : EdgeId := ⟨w.edges.size⟩
  let attrs := (w.ambient.edgeLayers spec.styles spec.attrs).resolve
  let key := (w.nodeName spec.source, w.nodeName spec.target)
  let attached := w.containerOpen && !w.pairTaken key
  let w := { w with edges := w.edges.push ⟨spec.source, spec.target, attrs, attached⟩ }
  (id, if attached then (w.claimPair key).listEdge id else w)

end Workspace

end DotDiagram
