import DotDiagram.ClassDiagram.Reader

/-! Class diagrams as they are written down: passages of text, each on lines of its own.
What is written carries what makes it well formed; what it says is stated beside it. -/

namespace DotDiagram.ClassDiagram

/-- Any number of spaces and tabs. -/
structure Blanks where
  chars : List Char
  gaps : ∀ c ∈ chars, isGap c = true

/-- At least one of them. -/
structure Gap extends Blanks where
  nonempty : chars ≠ []

structure Name where
  chars : List Char
  nonempty : chars ≠ []
  named : ∀ c ∈ chars, isNameChar c = true

def Name.text (name : Name) : String := String.ofList name.chars

/-- A word in any ASCII case. -/
structure Keyword (word : String) where
  chars : List Char
  same : chars.map Char.toLower = word.toList

inductive KindWords where
  | concrete (word : Keyword "class")
  | abstract (first : Keyword "abstract") (gap : Gap) (second : Keyword "class")
  | interface (word : Keyword "interface")
  | enumeration (word : Keyword "enum")

namespace KindWords

def kind : KindWords → ClassKind
  | .concrete _ => .concrete
  | .abstract _ _ _ => .abstract
  | .interface _ => .interface
  | .enumeration _ => .enumeration

def chars : KindWords → List Char
  | .concrete word => word.chars
  | .abstract first gap second => first.chars ++ gap.chars ++ second.chars
  | .interface word => word.chars
  | .enumeration word => word.chars

end KindWords

/-- A text between angle brackets, with spaces around. The brackets that close it are
the first that do. -/
structure Stereotype where
  lead : Blanks
  chars : List Char
  trail : Blanks
  trimmed : trim chars = chars
  free : ¬ ['>', '>'] <:+: chars
  apart : trail.chars = [] → chars.getLast? ≠ some '>'
  shown : lead.chars ++ chars ++ trail.chars ≠ []

namespace Stereotype

def text (s : Stereotype) : String := String.ofList s.chars

def inner (s : Stereotype) : List Char := s.lead.chars ++ s.chars ++ s.trail.chars

def written (s : Stereotype) : List Char := '<' :: '<' :: (s.inner ++ ['>', '>'])

end Stereotype

/-- Blanks, and a line feed with or without a carriage return. -/
structure LineEnd where
  blanks : Blanks
  carriage : Bool

namespace LineEnd

def before (e : LineEnd) : List Char := e.blanks.chars ++ if e.carriage then ['\r'] else []

def chars (e : LineEnd) : List Char := e.before ++ ['\n']

end LineEnd

structure Phrase where
  chars : List Char
  nonempty : chars ≠ []
  trimmed : trim chars = chars
  oneLine : '\n' ∉ chars

def Phrase.text (phrase : Phrase) : String := String.ofList phrase.chars

structure Member extends Phrase where
  noComment : chars.head? ≠ some '\''
  noBlockComment : ¬ ['/', '\''] <+: chars
  noEnd : chars.head? ≠ some '}'

structure MemberLine where
  indent : Blanks
  member : Member
  lineEnd : LineEnd

def MemberLine.chars (line : MemberLine) : List Char :=
  line.indent.chars ++ line.member.chars ++ line.lineEnd.chars

structure ClassBlock where
  kind : KindWords
  gap : Gap
  name : Name
  stereotype : Option (Blanks × Stereotype)
  space : Blanks
  headEnd : LineEnd
  members : List MemberLine
  indent : Blanks

namespace ClassBlock

def stereotypeChars (b : ClassBlock) : List Char :=
  match b.stereotype with
  | some (space, s) => space.chars ++ s.written
  | none => []

/-- The lines of the members and the closing brace. -/
def bodyChars (b : ClassBlock) : List Char :=
  b.members.flatMap MemberLine.chars ++ b.indent.chars ++ ['}']

def chars (b : ClassBlock) : List Char :=
  b.kind.chars ++ (b.gap.chars ++ (b.name.chars ++ (b.stereotypeChars ++ (b.space.chars ++
    '{' :: (b.headEnd.chars ++ b.bodyChars)))))

def texts (b : ClassBlock) : List String := b.members.map fun line => line.member.text

def decl (b : ClassBlock) : ClassDecl where
  kind := b.kind.kind
  name := b.name.text
  stereotype := b.stereotype.map fun s => s.2.text
  attributes := b.texts.filter fun m => !(m.toList.contains '(' && m.toList.contains ')')
  methods := b.texts.filter fun m => m.toList.contains '(' && m.toList.contains ')'

end ClassBlock

inductive Arrow where
  | inherited | implemented | inherits | implements
  | composition | aggregation | association | dependency

namespace Arrow

def text : Arrow → String
  | .inherited => "<|--"
  | .implemented => "<|.."
  | .inherits => "--|>"
  | .implements => "..|>"
  | .composition => "*--"
  | .aggregation => "o--"
  | .association => "-->"
  | .dependency => "..>"

/-- Inheritance and implementation run from the child, on whichever side it stands. -/
def relation (arrow : Arrow) (left right : String) (label : Option String) : Relation :=
  match arrow with
  | .inherited => ⟨right, left, .inheritance, label⟩
  | .implemented => ⟨right, left, .implements, label⟩
  | .inherits => ⟨left, right, .inheritance, label⟩
  | .implements => ⟨left, right, .implements, label⟩
  | .composition => ⟨left, right, .composition, label⟩
  | .aggregation => ⟨left, right, .aggregation, label⟩
  | .association => ⟨left, right, .association, label⟩
  | .dependency => ⟨left, right, .dependency, label⟩

end Arrow

structure Label where
  before : Blanks
  after : Blanks
  phrase : Phrase

def Label.chars (label : Label) : List Char :=
  label.before.chars ++ ':' :: (label.after.chars ++ label.phrase.chars)

structure RelationLine where
  left : Name
  before : Gap
  arrow : Arrow
  after : Gap
  right : Name
  label : Option Label

namespace RelationLine

def labelChars (r : RelationLine) : List Char := (r.label.map Label.chars).getD []

def chars (r : RelationLine) : List Char :=
  r.left.chars ++ (r.before.chars ++ (r.arrow.text.toList ++ (r.after.chars ++
    (r.right.chars ++ r.labelChars))))

def relation (r : RelationLine) : Relation :=
  r.arrow.relation r.left.text r.right.text (r.label.map fun label => label.phrase.text)

end RelationLine

example : (⟨⟨['c', 'l', 'a', 's', 's'], nofun, List.all_eq_true.mp rfl⟩,
    ⟨⟨[' '], List.all_eq_true.mp rfl⟩, nofun⟩, .aggregation, ⟨⟨[' '], List.all_eq_true.mp rfl⟩, nofun⟩,
    ⟨['o'], nofun, List.all_eq_true.mp rfl⟩, none⟩ : RelationLine).chars = "class o-- o".toList := rfl

/-- What is said in passing, to the end of the line. -/
structure Aside where
  chars : List Char
  oneLine : '\n' ∉ chars

inductive Writing where
  | classBlock (block : ClassBlock)
  | relation (line : RelationLine)
  | blank
  | comment (text : Aside)
  | directive (text : Aside)
  | blockComment (body : List Char) (free : ¬ ['\'', '/'] <:+: body) (tail : Aside)

namespace Writing

def chars : Writing → List Char
  | .classBlock block => block.chars
  | .relation line => line.chars
  | .blank => []
  | .comment text => '\'' :: text.chars
  | .directive text => '@' :: text.chars
  | .blockComment body _ tail => '/' :: '\'' :: (body ++ '\'' :: '/' :: tail.chars)

def item : Writing → Item
  | .classBlock block => .declared block.decl
  | .relation line => .related line.relation
  | .blank | .comment _ | .directive _ | .blockComment _ _ _ => .silent

end Writing

structure Passage where
  indent : Blanks
  writing : Writing
  lineEnd : LineEnd

namespace Passage

def chars (p : Passage) : List Char := p.indent.chars ++ (p.writing.chars ++ p.lineEnd.chars)

def decl? (p : Passage) : Option ClassDecl :=
  match p.writing with
  | .classBlock block => some block.decl
  | _ => none

def relation? (p : Passage) : Option Relation :=
  match p.writing with
  | .relation line => some line.relation
  | _ => none

end Passage

end DotDiagram.ClassDiagram
