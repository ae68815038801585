import DotDiagram.Dot.Document

/-! What the text of a document shows of it, and which documents are legible. A
value is shown as its display text, with no more than the fact whether it is markup.
Keys are written bare and markup bodies unescaped, so the first have to be
identifiers and the second balanced. -/

namespace DotDiagram

structure ShownValue where
  text : String
  markup : Bool
  deriving DecidableEq, Repr

abbrev ShownAttrs := List (String × ShownValue)

def AttrValue.shown (value : AttrValue) : ShownValue := ⟨value.display, value.isMarkup⟩

def AttrSet.shown (attrs : AttrSet) : ShownAttrs :=
  attrs.toList.map fun entry => (entry.1, entry.2.shown)

namespace Dot

structure ShownNode where
  name : String
  attrs : ShownAttrs
  deriving DecidableEq, Repr

structure ShownEdge where
  source : String
  target : String
  attrs : ShownAttrs
  deriving DecidableEq, Repr

/-- A graph or a subgraph. -/
inductive ShownContainer where
  | mk (name : String) (attrs : ShownAttrs) (nodes : List ShownNode) (edges : List ShownEdge)
    (subgraphs : List ShownContainer)

structure ShownDocument where
  kind : GraphKind
  graph : ShownContainer

def NodeStatement.shown (node : NodeStatement) : ShownNode := ⟨node.name, node.attrs.shown⟩

def EdgeStatement.shown (edge : EdgeStatement) : ShownEdge :=
  ⟨edge.source, edge.target, edge.attrs.shown⟩

mutual

def SubgraphStatement.shown : SubgraphStatement → ShownContainer
  | .mk name attrs nodes edges subgraphs =>
    .mk name attrs.shown (nodes.map NodeStatement.shown) (edges.map EdgeStatement.shown)
      (shownSubgraphs subgraphs)

def shownSubgraphs : List SubgraphStatement → List ShownContainer
  | [] => []
  | s :: rest => s.shown :: shownSubgraphs rest

end

def Document.shown (doc : Document) : ShownDocument :=
  ⟨doc.kind, .mk doc.name doc.attrs.shown (doc.nodes.map NodeStatement.shown)
    (doc.edges.map EdgeStatement.shown) (shownSubgraphs doc.subgraphs)⟩

/-- Letters, digits and underscores, not led by a digit. All characters beyond ASCII
count as letters. -/
def isNameLetter (c : Char) : Bool := c.isAlphanum || c == '_' || 128 ≤ c.toNat

def isBareName : List Char → Bool
  | [] => false
  | c :: cs => !c.isDigit && (c :: cs).all isNameLetter

/-- At least one digit and at most one point. -/
def isUnsigned (cs : List Char) : Bool :=
  cs.any Char.isDigit && (cs.filter (· == '.')).length ≤ 1 &&
    cs.all fun c => c.isDigit || c == '.'

def isNumeral : List Char → Bool
  | '-' :: cs => isUnsigned cs
  | cs => isUnsigned cs

def keywords : List String := ["node", "edge", "graph", "digraph", "subgraph", "strict"]

/-- Keywords are recognised in any case. -/
def isKeyword (s : String) : Bool :=
  keywords.any fun word => word.toList == s.toList.map Char.toLower

/-- An identifier that can stand before an equals sign without quotes. -/
def isKey (s : String) : Bool := (isBareName s.toList || isNumeral s.toList) && !isKeyword s

/-- No beginning closes more brackets than it opens, and in the end all are closed. -/
def AngleBalanced (cs : List Char) : Prop :=
  (∀ n ≤ cs.length, (cs.take n).count '>' ≤ (cs.take n).count '<') ∧
    cs.count '<' = cs.count '>'

instance (cs : List Char) : Decidable (AngleBalanced cs) :=
  inferInstanceAs (Decidable (_ ∧ _))

end Dot

def AttrValue.Legible : AttrValue → Prop
  | .markup body => Dot.AngleBalanced body.toList
  | _ => True

instance : (value : AttrValue) → Decidable value.Legible
  | .markup body => inferInstanceAs (Decidable (Dot.AngleBalanced body.toList))
  | .text _ | .integer _ | .number _ | .flag _ => isTrue trivial

def AttrSet.Legible (attrs : AttrSet) : Prop :=
  ∀ entry ∈ attrs.toList, Dot.isKey entry.1 = true ∧ entry.2.Legible

instance (attrs : AttrSet) : Decidable attrs.Legible :=
  inferInstanceAs (Decidable (∀ entry ∈ attrs.toList, _))

namespace Dot

mutual

def SubgraphStatement.Legible : SubgraphStatement → Prop
  | .mk _ attrs nodes edges subgraphs =>
    AttrSet.Legible attrs ∧ (∀ node ∈ nodes, AttrSet.Legible node.attrs) ∧
      (∀ edge ∈ edges, AttrSet.Legible edge.attrs) ∧ LegibleSubgraphs subgraphs

def LegibleSubgraphs : List SubgraphStatement → Prop
  | [] => True
  | s :: rest => s.Legible ∧ LegibleSubgraphs rest

end

structure Document.Legible (doc : Document) : Prop where
  attrs : AttrSet.Legible doc.attrs
  nodes : ∀ node ∈ doc.nodes, AttrSet.Legible node.attrs
  edges : ∀ edge ∈ doc.edges, AttrSet.Legible edge.attrs
  subgraphs : LegibleSubgraphs doc.subgraphs

end Dot

end DotDiagram
