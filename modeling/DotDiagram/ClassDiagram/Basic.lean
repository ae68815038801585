/-! Class diagrams: declared classes, and relations between class names. -/

namespace DotDiagram

inductive ClassKind where
  | concrete | abstract | interface | enumeration
  deriving DecidableEq, Repr

def ClassKind.name : ClassKind → String
  | .concrete => "class"
  | .abstract => "abstract"
  | .interface => "interface"
  | .enumeration => "enum"

structure ClassDecl where
  kind : ClassKind
  name : String
  stereotype : Option String
  attributes : List String
  methods : List String
  deriving DecidableEq, Repr

inductive RelationKind where
  | inheritance | implements | composition | aggregation | association | dependency
  deriving DecidableEq, Repr

def RelationKind.name : RelationKind → String
  | .inheritance => "inheritance"
  | .implements => "implements"
  | .composition => "composition"
  | .aggregation => "aggregation"
  | .association => "association"
  | .dependency => "dependency"

/-- A relation in its own direction: inheritance and implementation run from the
child to the parent, whichever way the arrow was written. -/
structure Relation where
  source : String
  target : String
  kind : RelationKind
  label : Option String
  deriving DecidableEq, Repr

structure ClassDiagram where
  classes : List ClassDecl
  relations : List Relation
  deriving DecidableEq, Repr

end DotDiagram
