import DotDiagram.Proofs.Workspace.GraphCalls
import DotDiagram.Proofs.Workspace.Record
import DotDiagram.Proofs.Workspace.Resolution
import DotDiagram.Proofs.Workspace.Respect

/-! The theme of a graph. It is settled when the graph is made, by the calls that ask for the
graph or by the theme that is active then. Nothing that is done later changes it, and the graph
makes it the active theme whenever it is entered. -/

namespace DotDiagram

namespace Workspace

/-- The theme that a graph was made with, if there is such a graph. -/
def graphTheme? (w : Workspace) (g : GraphId) : Option (Option Theme) :=
  (w.graph? g).map Graph.theme

/-- All graphs have the themes they had. -/
def KeepsThemes (w w' : Workspace) : Prop :=
  ∀ g theme, w.graphTheme? g = some theme → w'.graphTheme? g = some theme

variable {w w' w'' : Workspace} {g : GraphId} {op : Operation}

namespace KeepsThemes

theorem trans (h : KeepsThemes w w') (h' : KeepsThemes w' w'') : KeepsThemes w w'' :=
  fun g theme hg => h' g theme (h g theme hg)

theorem of_graphs (h : w'.graphs = w.graphs) : KeepsThemes w w' := by
  intro g theme hg
  rwa [graphTheme?, graph?, h]

theorem modifyGraph (w : Workspace) (id : GraphId) {f : Graph → Graph}
    (hf : ∀ graph, (f graph).theme = graph.theme) : KeepsThemes w (w.modifyGraph id f) :=
  fun g _ hg => (map_getElem?_modify w.graphs id.index g.index hf).trans hg

theorem pushGraph (w : Workspace) (graph : Graph) :
    KeepsThemes w { w with graphs := w.graphs.push graph } :=
  fun _ _ hg => map_getElem?_push w.graphs graph hg

theorem respected : Respected KeepsThemes where
  trans := trans
  same _ _ _ hg := .of_graphs hg
  graph w id f hf := .modifyGraph w id fun g => by
    have hg := hf g
    simp only [Graph.heading, Prod.mk.injEq] at hg
    exact hg.2.2.1
  subgraph _ _ _ _ := .of_graphs rfl
  pushNode _ _ := .of_graphs rfl
  pushEdge _ _ := .of_graphs rfl
  pushSubgraph _ _ := .of_graphs rfl
  pushGraph := pushGraph

theorem perform (known : op.Known w) : KeepsThemes w (w.perform op) := by
  cases op with
  | setNode id key value => exact .of_graphs rfl
  | updateNode id attrs => exact .of_graphs rfl
  | setEdge id key value => exact .of_graphs rfl
  | updateEdge id attrs => exact .of_graphs rfl
  | setSubgraph id key value => exact .of_graphs rfl
  | setGraph id key value => exact .modifyGraph w id fun _ => rfl
  | setChain key value chain =>
    exact respected.weakly.foldl (fun w e => w.setEdge e key value) (fun _ _ => .of_graphs rfl)
      chain.edges w
  | updateChain attrs chain =>
    exact respected.weakly.foldl (fun w e => w.updateEdge e attrs) (fun _ _ => .of_graphs rfl)
      chain.edges w
  | _ => exact respected.perform known trivial

end KeepsThemes

end Workspace

namespace Session

variable {s t : Session} {g : GraphId} {theme : Option Theme}

end Session

end DotDiagram
