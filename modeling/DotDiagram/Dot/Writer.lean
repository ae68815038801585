import DotDiagram.Dot.Document

/-! The text of a document: one statement a line, each level two spaces further in, and
no line end after the last line. -/

namespace DotDiagram.Dot

def indentation (depth : Nat) : String := String.ofList (List.replicate (2 * depth) ' ')

def attrText (entry : String × AttrValue) : String := entry.1 ++ "=" ++ entry.2.written

/-- The attributes of a graph or a subgraph are statements of their own. -/
def attrLines (depth : Nat) (attrs : AttrSet) : List String :=
  attrs.toList.map fun entry => indentation depth ++ attrText entry ++ ";"

/-- Those of a node or an edge stand in brackets after it, unless there are none. -/
def attrList (attrs : AttrSet) : String :=
  if attrs.isEmpty then ""
  else " [" ++ String.intercalate ", " (attrs.toList.map attrText) ++ "]"

def NodeStatement.line (depth : Nat) (node : NodeStatement) : String :=
  indentation depth ++ quoted node.name ++ attrList node.attrs ++ ";"

def EdgeStatement.line (kind : GraphKind) (depth : Nat) (edge : EdgeStatement) : String :=
  indentation depth ++ quoted edge.source ++ " " ++ kind.connector ++ " " ++
    quoted edge.target ++ attrList edge.attrs ++ ";"

mutual

def SubgraphStatement.lines (kind : GraphKind) (depth : Nat) : SubgraphStatement → List String
  | .mk name attrs nodes edges subgraphs =>
    (indentation depth ++ "subgraph " ++ quoted name ++ " \x7b") ::
      (attrLines (depth + 1) attrs ++ nodes.map (NodeStatement.line (depth + 1)) ++
        edges.map (EdgeStatement.line kind (depth + 1)) ++
        subgraphLines kind (depth + 1) subgraphs ++ [indentation depth ++ "\x7d"])

def subgraphLines (kind : GraphKind) (depth : Nat) : List SubgraphStatement → List String
  | [] => []
  | s :: rest => s.lines kind depth ++ subgraphLines kind depth rest

end

def Document.lines (doc : Document) : List String :=
  (doc.kind.keyword ++ " " ++ quoted doc.name ++ " \x7b") ::
    (attrLines 1 doc.attrs ++ subgraphLines doc.kind 1 doc.subgraphs ++
      doc.nodes.map (NodeStatement.line 1) ++ doc.edges.map (EdgeStatement.line doc.kind 1) ++
      ["\x7d"])

def Document.text (doc : Document) : String := String.intercalate "\n" doc.lines

end DotDiagram.Dot
