import DotDiagram.Markdown.Label
import DotDiagram.Proofs.Markup.Balance
import DotDiagram.Proofs.Text.Trim

/-! The markup of Markdown labels as trees. What an event says is kept apart from what
the writer adds to it: the first is always escaped, the second is taken from fixed sets
of tags and signs. -/

namespace DotDiagram

namespace Markdown

inductive Node where
  | said (c : Char)
  | own (c : Char)
  | bullet
  | lineBreak
  | element (tag : Markup.Tag) (content : List Node)

/-- What is written in one go. -/
inductive Mark where
  | said (c : Char)
  | own (c : Char)
  | bullet
  | lineBreak
  | opening (tag : Markup.Tag)
  | closing (name : String)
  deriving DecidableEq

mutual

def Node.marks : Node → List Mark
  | .said c => [.said c]
  | .own c => [.own c]
  | .bullet => [.bullet]
  | .lineBreak => [.lineBreak]
  | .element tag content => .opening tag :: (marks content ++ [.closing tag.name])

def marks : List Node → List Mark
  | [] => []
  | node :: nodes => node.marks ++ marks nodes

end

def Mark.chars : Mark → List Char
  | .said c => escapeMarkupChar c
  | .own c => [c]
  | .bullet => ['&', '#', '8', '2', '2', '6', ';']
  | .lineBreak => ['<', 'B', 'R', '/', '>']
  | .opening tag => '<' :: (tag.chars ++ ['>'])
  | .closing name => '<' :: '/' :: (name.toList ++ ['>'])

def text (nodes : List Node) : String := .ofList ((marks nodes).flatMap Mark.chars)

def Mark.said? : Mark → Option Char
  | .said c => some c
  | _ => none

/-- The characters of the events in a tree. -/
def said (nodes : List Node) : List Char := (marks nodes).filterMap Mark.said?

def saidNodes (cs : List Char) : List Node := cs.map .said

theorem saidNodes_append (cs ds : List Char) :
    saidNodes (cs ++ ds) = saidNodes cs ++ saidNodes ds := List.map_append

def ownNodes (cs : List Char) : List Node := cs.map .own

/-- Elements one in the other, the outermost first. -/
def wrap (tags : List Markup.Tag) (content : List Node) : List Node :=
  tags.foldr (fun tag inner => [.element tag inner]) content

def openings (tags : List Markup.Tag) : List Char :=
  tags.flatMap fun tag => (Mark.opening tag).chars

def closings (tags : List Markup.Tag) : List Char :=
  tags.reverse.flatMap fun tag => (Mark.closing tag.name).chars

/-! ### What is the writer's own -/

def labelTag : Markup.Tag :=
  ⟨"TABLE", [("BORDER", "0"), ("CELLBORDER", "0"), ("CELLSPACING", "0")]⟩

def listTag : Markup.Tag :=
  ⟨"TABLE", [("BORDER", "0"), ("CELLBORDER", "0"), ("CELLSPACING", "0"), ("CELLPADDING", "2")]⟩

def codeTag : Markup.Tag :=
  ⟨"TABLE", [("BORDER", "0"), ("CELLBORDER", "1"), ("CELLSPACING", "0"), ("CELLPADDING", "2")]⟩

def quoteTag : Markup.Tag := ⟨"TABLE", [("BORDER", "0"), ("CELLBORDER", "0")]⟩

def gridTag : Markup.Tag :=
  ⟨"TABLE", [("BORDER", "1"), ("CELLBORDER", "1"), ("CELLSPACING", "0"), ("CELLPADDING", "4")]⟩

def rowTag : Markup.Tag := ⟨"TR", []⟩

def marginTag : Markup.Tag := ⟨"TD", [("WIDTH", "20")]⟩

def Alignment.tag : Alignment → Markup.Tag
  | .none => ⟨"TD", []⟩
  | .left => ⟨"TD", [("ALIGN", "LEFT")]⟩
  | .center => ⟨"TD", [("ALIGN", "CENTER")]⟩
  | .right => ⟨"TD", [("ALIGN", "RIGHT")]⟩

def monospaceTag : Markup.Tag := ⟨"FONT", [("FACE", "monospace")]⟩

def HeadingLevel.tag (level : HeadingLevel) : Markup.Tag :=
  ⟨"FONT", [("POINT-SIZE", level.pointSize)]⟩

def boldTag : Markup.Tag := ⟨"B", []⟩

def italicTag : Markup.Tag := ⟨"I", []⟩

def struckTag : Markup.Tag := ⟨"S", []⟩

def tableTags : List Markup.Tag := [labelTag, listTag, codeTag, quoteTag, gridTag]

def cellTags : List Markup.Tag :=
  marginTag :: [Alignment.none, .left, .center, .right].map Alignment.tag

def spanTags : List Markup.Tag :=
  [boldTag, italicTag, struckTag, monospaceTag] ++
    [HeadingLevel.h1, .h2, .h3, .h4, .h5, .h6].map HeadingLevel.tag

/-- All tags that the writer knows, except for the line break. -/
def writerTags : List Markup.Tag := tableTags ++ rowTag :: cellTags ++ spanTags

/-- The characters that the writer adds: in rules, item numbers, task boxes and so on. -/
def isSign (c : Char) : Bool :=
  c.isDigit || [' ', '.', '[', 'x', ']', 'i', 'm', 'a', 'g', 'e', '─'].contains c

def Mark.Proper : Mark → Prop
  | .said _ | .bullet | .lineBreak => True
  | .own c => isSign c = true
  | .opening tag => tag ∈ writerTags
  | .closing name => name ∈ writerTags.map Markup.Tag.name

def Proper (nodes : List Node) : Prop := ∀ mark ∈ marks nodes, mark.Proper

section

variable {nodes nodes' : List Node} {tag : Markup.Tag}

theorem marks_append (nodes nodes' : List Node) :
    marks (nodes ++ nodes') = marks nodes ++ marks nodes' := by
  induction nodes with
  | nil => rfl
  | cons node nodes ih => rw [List.cons_append, marks, ih, marks, List.append_assoc]

theorem marks_eq_flatMap (nodes : List Node) : marks nodes = nodes.flatMap Node.marks := by
  induction nodes with
  | nil => rfl
  | cons node nodes ih => rw [marks, ih, List.flatMap_cons]

theorem marks_element (tag : Markup.Tag) (content : List Node) :
    marks [.element tag content] = .opening tag :: (marks content ++ [.closing tag.name]) := by
  rw [marks, marks, List.append_nil, Node.marks]

theorem marks_saidNodes (cs : List Char) : marks (saidNodes cs) = cs.map .said := by
  induction cs with
  | nil => rfl
  | cons c cs ih =>
    rw [saidNodes] at ih
    rw [saidNodes, List.map_cons, marks, ih]
    rfl

theorem marks_ownNodes (cs : List Char) : marks (ownNodes cs) = cs.map .own := by
  induction cs with
  | nil => rfl
  | cons c cs ih =>
    rw [ownNodes] at ih
    rw [ownNodes, List.map_cons, marks, ih]
    rfl

theorem toList_text (nodes : List Node) : (text nodes).toList = (marks nodes).flatMap Mark.chars :=
  String.toList_ofList

theorem text_append (nodes nodes' : List Node) :
    text (nodes ++ nodes') = text nodes ++ text nodes' := by
  rw [text, marks_append, List.flatMap_append, String.ofList_append]
  rfl

theorem text_flatMap {α : Type} (f : α → List Node) (xs : List α) :
    text (xs.flatMap f) = String.join (xs.map fun x => text (f x)) := by
  induction xs with
  | nil => rfl
  | cons x xs ih => rw [List.flatMap_cons, text_append, ih, List.map_cons, String.join_cons]

theorem text_saidNodes (cs : List Char) :
    text (saidNodes cs) = .ofList (cs.flatMap escapeMarkupChar) := by
  rw [text, marks_saidNodes, List.flatMap_map]
  rfl

theorem text_ownNodes (s : String) : text (ownNodes s.toList) = s := by
  rw [text, marks_ownNodes, List.flatMap_map]
  simp [Mark.chars]

theorem toList_text_element (tag : Markup.Tag) (content : List Node) :
    (text [.element tag content]).toList =
      '<' :: (tag.chars ++ '>' :: ((text content).toList ++ '<' :: '/' ::
        (tag.name.toList ++ ['>']))) := by
  simp [toList_text, marks_element, Mark.chars]

theorem text_wrap (tags : List Markup.Tag) (content : List Node) :
    text (wrap tags content) =
      .ofList (openings tags) ++ text content ++ .ofList (closings tags) := by
  apply String.toList_injective
  simp only [String.toList_append, String.toList_ofList]
  induction tags with
  | nil => exact (List.append_nil _).symm
  | cons tag tags ih =>
    have htags : wrap (tag :: tags) content = [.element tag (wrap tags content)] := rfl
    rw [htags, toList_text_element, ih]
    simp [openings, closings, Mark.chars]

theorem text_wrap_eq {tags : List Markup.Tag} {before after : String}
    (ho : .ofList (openings tags) = before) (hc : .ofList (closings tags) = after)
    (content : List Node) : text (wrap tags content) = before ++ text content ++ after := by
  rw [text_wrap, ho, hc]

theorem said_eq_flatMap (nodes : List Node) :
    said nodes = nodes.flatMap fun node => node.marks.filterMap Mark.said? := by
  rw [said, marks_eq_flatMap, List.filterMap_flatMap]

theorem said_append (nodes nodes' : List Node) :
    said (nodes ++ nodes') = said nodes ++ said nodes' := by
  rw [said, marks_append, List.filterMap_append]
  rfl

theorem said_flatMap {α : Type} (f : α → List Node) (xs : List α) :
    said (xs.flatMap f) = xs.flatMap fun x => said (f x) := by
  induction xs with
  | nil => rfl
  | cons x xs ih => rw [List.flatMap_cons, said_append, ih, List.flatMap_cons]

theorem said_element (tag : Markup.Tag) (content : List Node) :
    said [.element tag content] = said content := by
  have hopening : Mark.said? (.opening tag) = none := rfl
  have hclosing : Mark.said? (.closing tag.name) = none := rfl
  simp [said, marks_element, hopening, hclosing]

theorem said_wrap (tags : List Markup.Tag) (content : List Node) :
    said (wrap tags content) = said content := by
  induction tags with
  | nil => rfl
  | cons tag tags ih => exact (said_element tag _).trans ih

theorem said_saidNodes (cs : List Char) : said (saidNodes cs) = cs := by
  rw [said, marks_saidNodes, List.filterMap_map]
  exact List.filterMap_some

theorem said_ownNodes (cs : List Char) : said (ownNodes cs) = [] := by
  rw [said, marks_ownNodes, List.filterMap_map]
  exact List.filterMap_eq_nil_iff.mpr fun c _ => rfl

theorem proper_append : Proper (nodes ++ nodes') ↔ Proper nodes ∧ Proper nodes' := by
  simp only [Proper, marks_append, List.mem_append, or_imp, forall_and]

theorem proper_flatMap {α : Type} {f : α → List Node} {xs : List α}
    (h : ∀ x ∈ xs, Proper (f x)) : Proper (xs.flatMap f) := by
  induction xs with
  | nil => nofun
  | cons x xs ih =>
    have hxs := ih fun y hy => h y (List.mem_cons_of_mem x hy)
    exact proper_append.mpr ⟨h x List.mem_cons_self, hxs⟩

theorem Proper.name_mem (h : Proper nodes) (hm : .opening tag ∈ marks nodes) :
    tag.name ∈ ["TABLE", "TR", "TD", "FONT", "B", "I", "S"] := by
  have hnames : ∀ tag ∈ writerTags,
      tag.name ∈ ["TABLE", "TR", "TD", "FONT", "B", "I", "S"] := by decide
  exact hnames tag (h _ hm)

theorem Proper.of_subset (h : Proper nodes) (hsub : nodes' ⊆ nodes) : Proper nodes' := by
  intro mark hm
  rw [marks_eq_flatMap] at hm
  obtain ⟨node, hnode, hm⟩ := List.mem_flatMap.mp hm
  apply h
  rw [marks_eq_flatMap]
  exact List.mem_flatMap.mpr ⟨node, hsub hnode, hm⟩

theorem proper_element (htag : tag ∈ writerTags) :
    Proper [.element tag nodes] ↔ Proper nodes := by
  constructor
  · intro h mark hm
    apply h
    rw [marks_element]
    exact List.mem_cons_of_mem _ (List.mem_append_left _ hm)
  · intro h mark hm
    rw [marks_element] at hm
    rcases List.mem_cons.mp hm with rfl | hm
    · exact htag
    · rcases List.mem_append.mp hm with hm | hm
      · exact h mark hm
      · rw [List.mem_singleton.mp hm]
        exact List.mem_map_of_mem htag

theorem proper_wrap {tags : List Markup.Tag} (htags : ∀ tag ∈ tags, tag ∈ writerTags) :
    Proper (wrap tags nodes) ↔ Proper nodes := by
  induction tags with
  | nil => exact Iff.rfl
  | cons tag tags ih =>
    have htag := htags tag List.mem_cons_self
    exact (proper_element htag).trans (ih fun t ht => htags t (List.mem_cons_of_mem tag ht))

theorem proper_saidNodes (cs : List Char) : Proper (saidNodes cs) := by
  intro mark hm
  rw [marks_saidNodes] at hm
  obtain ⟨c, -, rfl⟩ := List.mem_map.mp hm
  trivial

theorem proper_ownNodes {cs : List Char} (h : cs.all isSign = true) : Proper (ownNodes cs) := by
  intro mark hm
  rw [marks_ownNodes] at hm
  obtain ⟨c, hc, rfl⟩ := List.mem_map.mp hm
  exact List.all_eq_true.mp h c hc

end

/-! ### Trimming a tree -/

def Node.isBlank : Node → Bool
  | .said c | .own c => DotDiagram.isBlank c
  | _ => false

/-- A tree without the white space at its end. -/
def trimEnd (nodes : List Node) : List Node := nodes.rdropWhile Node.isBlank

def trimEnds (nodes : List Node) : List Node := trimEnd (nodes.dropWhile Node.isBlank)

theorem escape_writesBlanks : WritesBlanks escapeMarkupChar isBlank where
  blanks c hc d hd := by
    have hentities : ∀ entry ∈ Markup.entities, isBlank entry.2 = false := by decide
    rcases Markup.escapeMarkupChar_cases c with ⟨name, hname, -⟩ | ⟨-, -, -, hesc⟩
    · rw [hentities _ hname] at hc
      cases hc
    · rw [hesc, List.mem_singleton] at hd
      rwa [hd]
  head c hc := by
    rcases Markup.escapeMarkupChar_cases c with ⟨name, -, hesc⟩ | ⟨-, -, -, hesc⟩
    · exact ⟨'&', by rw [hesc]; rfl, by decide⟩
    · exact ⟨c, by rw [hesc]; rfl, hc⟩
  last c hc := by
    have hentities : ∀ entry ∈ Markup.entities,
        ('&' :: entry.1.toList).getLast? = some ';' := by decide
    rcases Markup.escapeMarkupChar_cases c with ⟨name, hname, hesc⟩ | ⟨-, -, -, hesc⟩
    · exact ⟨';', by rw [hesc]; exact hentities _ hname, by decide⟩
    · exact ⟨c, by rw [hesc]; rfl, hc⟩

def Node.chars (node : Node) : List Char := node.marks.flatMap Mark.chars

theorem Node.chars_ne_nil (node : Node) : node.chars ≠ [] := by
  cases node with
  | said c =>
    rcases Markup.escapeMarkupChar_cases c with ⟨name, -, hc⟩ | ⟨-, -, -, hc⟩ <;>
      simp [Node.chars, Node.marks, Mark.chars, hc]
  | own c | bullet | lineBreak | element => nofun

theorem toList_text_eq_flatMap (nodes : List Node) :
    (text nodes).toList = nodes.flatMap Node.chars := by
  rw [toList_text, marks_eq_flatMap, List.flatMap_assoc]
  rfl

theorem node_saysBlanks : ∀ node : Node, node.isBlank = true →
    ∀ c ∈ node.marks.filterMap Mark.said?, DotDiagram.isBlank c = true := by
  intro node hn c hc
  cases node with
  | said d =>
    rw [List.mem_singleton.mp hc]
    exact hn
  | own d => cases hc
  | bullet | lineBreak | element => cases hn

theorem node_writesBlanks : WritesBlanks Node.chars Node.isBlank where
  blanks node hn := by
    cases node with
    | said c => simpa [Node.chars, Node.marks, Mark.chars] using escape_writesBlanks.blanks c hn
    | own c =>
      intro d hd
      rw [List.mem_singleton.mp hd]
      exact hn
    | bullet | lineBreak | element => cases hn
  head node hn := by
    cases node with
    | said c => simpa [Node.chars, Node.marks, Mark.chars] using escape_writesBlanks.head c hn
    | own c => exact ⟨c, rfl, hn⟩
    | bullet => exact ⟨'&', rfl, rfl⟩
    | lineBreak | element => exact ⟨'<', rfl, rfl⟩
  last node hn := by
    cases node with
    | said c => simpa [Node.chars, Node.marks, Mark.chars] using escape_writesBlanks.last c hn
    | own c => exact ⟨c, rfl, hn⟩
    | bullet => exact ⟨';', rfl, rfl⟩
    | lineBreak => exact ⟨'>', rfl, rfl⟩
    | element tag content =>
      refine ⟨'>', ?_, rfl⟩
      simp [Node.chars, Node.marks, Mark.chars, List.getLast?_append, List.getLast?_cons]

theorem lessBlanks_trimEnd (nodes : List Node) :
    LessBlanks (said (trimEnd nodes)) (said nodes) := by
  rw [said_eq_flatMap, said_eq_flatMap]
  exact .rdropWhile node_saysBlanks nodes

theorem lessBlanks_trimEnds (nodes : List Node) :
    LessBlanks (said (trimEnds nodes)) (said nodes) := by
  refine (lessBlanks_trimEnd _).trans ?_
  rw [said_eq_flatMap, said_eq_flatMap]
  exact .dropWhile node_saysBlanks nodes

theorem Proper.trimEnd {nodes : List Node} (h : Proper nodes) : Proper (trimEnd nodes) :=
  h.of_subset (List.rdropWhile_prefix _ _).subset

theorem Proper.trimEnds {nodes : List Node} (h : Proper nodes) : Proper (trimEnds nodes) :=
  (h.of_subset (List.dropWhile_sublist _).subset).trimEnd

end Markdown

end DotDiagram
