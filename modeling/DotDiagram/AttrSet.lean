import DotDiagram.AttrValue
import DotDiagram.Keyed

/-! Attribute sets and styles. A style is a set meant for one kind of element, and
layers of styles resolve to the set of one element. -/

namespace DotDiagram

abbrev AttrSet := Keyed AttrValue

namespace AttrSet

def characters? (attrs : AttrSet) (key : String) : Option String :=
  (attrs.get? key).bind AttrValue.characters?

/-- Order does not matter, and numbers compare as numbers. -/
def same (a b : AttrSet) : Bool := a.agrees AttrValue.same b

end AttrSet

inductive ElementKind where
  | graph | node | edge
  deriving DecidableEq, Repr

def ElementKind.name : ElementKind → String
  | .graph => "graph"
  | .node => "node"
  | .edge => "edge"

/-- A bundle of attributes for one kind of element. -/
structure Style (kind : ElementKind) where
  attrs : AttrSet
  deriving DecidableEq, Inhabited

abbrev GraphStyle := Style .graph
abbrev NodeStyle := Style .node
abbrev EdgeStyle := Style .edge

namespace Style

variable {kind : ElementKind}

def empty : Style kind := ⟨.empty⟩

def ofList (entries : List (String × AttrValue)) : Style kind := ⟨.ofList entries⟩

def insert (style : Style kind) (key : String) (value : AttrValue) : Style kind :=
  ⟨style.attrs.insert key value⟩

def get? (style : Style kind) (key : String) : Option AttrValue := style.attrs.get? key

/-- The second style wins. -/
def merge (a b : Style kind) : Style kind := ⟨a.attrs.merge b.attrs⟩

end Style

/-- What an element's attributes are made of, weakest first. -/
structure Layers (kind : ElementKind) where
  theme : Option (Style kind)
  ambient : List (Style kind)
  explicit : List (Style kind)
  direct : AttrSet

/-- Each layer is written over those beneath it. -/
def Layers.resolve {kind : ElementKind} (layers : Layers kind) : AttrSet :=
  let styles := layers.theme.toList ++ layers.ambient ++ layers.explicit
  (styles.foldl (fun acc style => acc.merge style.attrs) Keyed.empty).merge layers.direct

end DotDiagram
