import DotDiagram.Proofs.Dot.Token

/-! Reading documents. Each clause of a document ends with a semicolon or a brace, so
the tokens fall into groups, each group is one clause, and the braces say which
container a clause belongs to. -/

namespace DotDiagram.Dot

def Token.value? : Token → Option ShownValue
  | .text s => some ⟨s, false⟩
  | .markup s => some ⟨s, true⟩
  | _ => none

/-- The sign, if it ends a clause. -/
def Token.stop? : Token → Option Char
  | .sign c => if c = ';' ∨ c = '{' ∨ c = '}' then some c else none
  | _ => none

/-- Every clause with the sign that ends it. -/
def groups? : List Token → Option (List (List Token × Char))
  | [] => some []
  | t :: rest =>
    match t.stop?, groups? rest with
    | some c, groups => groups.map (([], c) :: ·)
    | none, some ((ts, c) :: groups) => some ((t :: ts, c) :: groups)
    | none, _ => none

inductive Clause where
  | attr (entry : String × ShownValue)
  | node (node : ShownNode)
  | edge (edge : ShownEdge)
  | opening (name : String)
  | closing

/-- What stands between the brackets, the closing one included. -/
def entries? : List Token → Option ShownAttrs
  | [.word key, .sign '=', t, .sign ']'] =>
    if isKey key then t.value?.map fun value => [(key, value)] else none
  | .word key :: .sign '=' :: t :: .sign ',' :: rest =>
    if isKey key then
      t.value?.bind fun value => (entries? rest).map fun entries => (key, value) :: entries
    else none
  | _ => none

def attrs? : List Token → Option ShownAttrs
  | [] => some []
  | .sign '[' :: rest => entries? rest
  | _ => none

/-- Edges have to be drawn as the kind of the graph demands. -/
def clause? (kind : GraphKind) : List Token × Char → Option Clause
  | ([], '}') => some .closing
  | ([.word "subgraph", .text name], '{') => some (.opening name)
  | ([.word key, .sign '=', t], ';') =>
    if isKey key then t.value?.map fun value => .attr (key, value) else none
  | (.text source :: .link k :: .text target :: rest, ';') =>
    if k = kind then (attrs? rest).map fun attrs => .edge ⟨source, target, attrs⟩ else none
  | (.text name :: rest, ';') => (attrs? rest).map fun attrs => .node ⟨name, attrs⟩
  | _ => none

namespace ShownContainer

def empty (name : String) : ShownContainer := .mk name [] [] [] []

def addAttr (entry : String × ShownValue) : ShownContainer → ShownContainer
  | .mk name attrs nodes edges subgraphs => .mk name (attrs ++ [entry]) nodes edges subgraphs

def addNode (node : ShownNode) : ShownContainer → ShownContainer
  | .mk name attrs nodes edges subgraphs => .mk name attrs (nodes ++ [node]) edges subgraphs

def addEdge (edge : ShownEdge) : ShownContainer → ShownContainer
  | .mk name attrs nodes edges subgraphs => .mk name attrs nodes (edges ++ [edge]) subgraphs

def addSubgraph : ShownContainer → ShownContainer → ShownContainer
  | .mk name attrs nodes edges subgraphs, s => .mk name attrs nodes edges (subgraphs ++ [s])

end ShownContainer

/-- Clauses go to the innermost open container; a closing brace puts that into the next
one of those around it. The graph closes last, and nothing stands after it. -/
def assemble? : ShownContainer → List ShownContainer → List Clause → Option ShownContainer
  | inner, outer, .attr entry :: rest => assemble? (inner.addAttr entry) outer rest
  | inner, outer, .node node :: rest => assemble? (inner.addNode node) outer rest
  | inner, outer, .edge edge :: rest => assemble? (inner.addEdge edge) outer rest
  | inner, outer, .opening name :: rest => assemble? (.empty name) (inner :: outer) rest
  | inner, parent :: outer, .closing :: rest => assemble? (parent.addSubgraph inner) outer rest
  | inner, [], [.closing] => some inner
  | _, _, _ => none

def graphKind? (keyword : String) : Option GraphKind :=
  if keyword = "digraph" then some .directed
  else if keyword = "graph" then some .undirected
  else none

def ofGroups? : List (List Token × Char) → Option ShownDocument
  | ([.word keyword, .text name], '{') :: rest =>
    (graphKind? keyword).bind fun kind =>
      (rest.mapM (clause? kind)).bind fun clauses =>
        (assemble? (.empty name) [] clauses).map fun graph => ⟨kind, graph⟩
  | _ => none

/-- What a text says, if it is that of a document. -/
def read? (text : String) : Option ShownDocument :=
  ((tokens? text.toList).bind groups?).bind ofGroups?

end DotDiagram.Dot
