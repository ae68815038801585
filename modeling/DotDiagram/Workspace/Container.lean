import DotDiagram.Error
import DotDiagram.RankDir
import DotDiagram.Text.Scan
import DotDiagram.Workspace.Basic

/-! Making graphs and subgraphs, and opening and closing them. A container with a theme
makes it the active one while it is open. -/

namespace DotDiagram

structure GraphSpec where
  name : String
  kind : GraphKind
  theme : Option ThemeChoice
  styles : List GraphStyle
  rankDir : Option RankDir
  attrs : AttrSet

def GraphSpec.plain (name : String) : GraphSpec := ⟨name, .directed, none, [], none, .empty⟩

/-- One call on the way to a graph. -/
inductive GraphCall where
  | kind (kind : GraphKind)
  | theme (name : String)
  | customTheme (theme : Theme)
  | style (style : GraphStyle)
  | styles (styles : List GraphStyle)
  | rankDir (dir : RankDir)
  | attr (key : String) (value : AttrValue)
  | attrs (attrs : AttrSet)

def GraphSpec.call (spec : GraphSpec) : GraphCall → GraphSpec
  | .kind kind => { spec with kind }
  | .theme name => { spec with theme := some (.named name) }
  | .customTheme theme => { spec with theme := some (.custom theme) }
  | .style style => { spec with styles := spec.styles ++ [style] }
  | .styles styles => { spec with styles := spec.styles ++ styles }
  | .rankDir dir => { spec with rankDir := some dir }
  | .attr key value => { spec with attrs := spec.attrs.insert key value }
  | .attrs attrs => { spec with attrs := spec.attrs.merge attrs }

def GraphSpec.ofCalls (name : String) (calls : List GraphCall) : GraphSpec :=
  calls.foldl GraphSpec.call (.plain name)

/-- Ranks run from top to bottom unless something else says otherwise. -/
def withRankDir (attrs : AttrSet) : Option RankDir → AttrSet
  | some dir => attrs.insert "rankdir" dir.name
  | none =>
    if attrs.contains "rankdir" then attrs else attrs.insert "rankdir" RankDir.topBottom.name

def GraphSpec.resolve (spec : GraphSpec) (theme : Option Theme) : AttrSet :=
  let layers : Layers .graph := ⟨theme.map Theme.graph, [], spec.styles, .empty⟩
  (withRankDir layers.resolve spec.rankDir).merge spec.attrs

/-- A subgraph that is not given a name is named by a token, which is drawn anew for each. -/
inductive SubgraphName where
  | given (name : String)
  | drawn (token : String)

def SubgraphName.text : SubgraphName → String
  | .given name => name
  | .drawn token => "subgraph_" ++ token

structure SubgraphSpec where
  name : SubgraphName
  cluster : Bool
  theme : Option ThemeChoice
  styles : List GraphStyle
  attrs : AttrSet

def SubgraphSpec.named (name : String) : SubgraphSpec := ⟨.given name, true, none, [], .empty⟩

def clusterMark : String := "cluster_"

/-- The names of clusters begin with a mark of their own. -/
def clusterName (name : String) : String :=
  if (after? clusterMark.toList name.toList).isSome then name else clusterMark ++ name

/-- The guards of an open container. -/
structure Scope where
  container : Guard
  theme : Option Guard
  deriving DecidableEq

namespace Workspace

/-- A theme that is not found leaves the choice to the active theme. -/
def buildGraph (spec : GraphSpec) (w : Workspace) : GraphId × Workspace :=
  let theme := (spec.theme.bind ThemeChoice.theme?).or w.ambient.theme?
  let graph : Graph := ⟨spec.name, spec.kind, theme, spec.resolve theme, [], [], [], [], []⟩
  (⟨w.graphs.size⟩, { w with graphs := w.graphs.push graph })

def listSubgraph (id : SubgraphId) (w : Workspace) : Workspace :=
  match w.ambient.subgraph?, w.ambient.graph? with
  | some s, _ => w.modifySubgraph s fun s => { s with subgraphs := s.subgraphs ++ [id] }
  | none, some g => w.modifyGraph g fun g => { g with subgraphs := g.subgraphs ++ [id] }
  | none, none => w

def buildSubgraph (spec : SubgraphSpec) (w : Workspace) : SubgraphId × Workspace :=
  let name := if spec.cluster then clusterName spec.name.text else spec.name.text
  let layers : Layers .graph := ⟨none, [], spec.styles, spec.attrs⟩
  let theme := spec.theme.bind ThemeChoice.theme?
  let subgraph : Subgraph := ⟨name, spec.cluster, theme, layers.resolve, .empty, [], []⟩
  let id : SubgraphId := ⟨w.subgraphs.size⟩
  (id, { w with subgraphs := w.subgraphs.push subgraph }.listSubgraph id)

def enterNodeStyle (style : NodeStyle) (w : Workspace) : Guard × Workspace :=
  let (guard, ambient) := w.ambient.enterNodeStyle style
  (guard, { w with ambient })

def enterEdgeStyle (style : EdgeStyle) (w : Workspace) : Guard × Workspace :=
  let (guard, ambient) := w.ambient.enterEdgeStyle style
  (guard, { w with ambient })

def enterTheme (theme : Theme) (w : Workspace) : Guard × Workspace :=
  let (guard, ambient) := w.ambient.enterTheme theme
  (guard, { w with ambient })

/-- The theme of a container is entered before the container. -/
def enterThemeOf (theme : Option Theme) (w : Workspace) : Option Guard × Workspace :=
  match theme with
  | none => (none, w)
  | some theme => ((w.enterTheme theme).1, (w.enterTheme theme).2)

/-- At most one graph is open at a time. -/
def enterGraph (id : GraphId) (w : Workspace) : Except Error Scope × Workspace :=
  match w.ambient.graph? with
  | some outer =>
    let name (g : GraphId) : String := ((w.graph? g).map Graph.name).getD ""
    (.error (.nestedGraph (name outer) (name id)), w)
  | none =>
    let (theme, w) := w.enterThemeOf ((w.graph? id).bind Graph.theme)
    let (container, ambient) := w.ambient.enterGraph id
    (.ok ⟨container, theme⟩, { w with ambient })

def enterSubgraph (id : SubgraphId) (w : Workspace) : Scope × Workspace :=
  let (theme, w) := w.enterThemeOf ((w.subgraph? id).bind Subgraph.theme)
  let (container, ambient) := w.ambient.enterSubgraph id
  (⟨container, theme⟩, { w with ambient })

/-- Releases one guard; returns its slot if that was out of order. -/
def release (guard : Guard) (w : Workspace) : Option Slot × Workspace :=
  let (r, ambient) := w.ambient.release guard
  (if r = .outOfOrder then some guard.slot else none, { w with ambient })

/-- Closes a container, then its theme; both are released whatever happens, and the
first fault counts. -/
def leave (scope : Scope) (w : Workspace) : Option Slot × Workspace :=
  let (fault, w) := w.release scope.container
  match scope.theme with
  | none => (fault, w)
  | some theme => (fault.or (w.release theme).1, (w.release theme).2)

end Workspace

end DotDiagram
