import DotDiagram.ClassDiagram.Style
import DotDiagram.Markup

/-! Class nodes and their labels: a table with the name under its stereotype, then
the attributes, then the methods. -/

namespace DotDiagram

/-- A class to be drawn, with styles and attributes of its own. -/
structure ClassNode where
  kind : ClassKind
  name : String
  stereotype : Option String
  attributes : List String
  methods : List String
  styles : List NodeStyle
  attrs : AttrSet

namespace ClassNode

def ofDecl (c : ClassDecl) : ClassNode :=
  ⟨c.kind, c.name, c.stereotype, c.attributes, c.methods, [], .empty⟩

/-- A class of which only the name is known. -/
def plain (name : String) : ClassNode := ⟨.concrete, name, none, [], [], [], .empty⟩

/-- Interfaces and abstract classes have fixed stereotypes. -/
def shownStereotype (c : ClassNode) : Option String :=
  match c.kind with
  | .interface => some "interface"
  | .abstract => some "abstract"
  | .enumeration => some (c.stereotype.getD "enumeration")
  | .concrete => c.stereotype

/-- An interface shows no attributes. -/
def shownAttributes (c : ClassNode) : List String :=
  match c.kind with
  | .interface => []
  | _ => c.attributes

def title (c : ClassNode) : String :=
  match c.shownStereotype with
  | some s => "&lt;&lt;" ++ escapeMarkup s ++ "&gt;&gt;<BR/>" ++ escapeMarkup c.name
  | none => escapeMarkup c.name

def label (c : ClassNode) : String :=
  tableLabel c.title
    [⟨.left, c.shownAttributes.map escapeMarkup⟩, ⟨.left, c.methods.map escapeMarkup⟩]
    .standard

/-- The looks of classes in general, of this kind of class, then of this class. -/
def allStyles (c : ClassNode) : List NodeStyle :=
  classStyle :: (c.kind.style?.toList ++ c.styles)

end ClassNode

end DotDiagram
