import DotDiagram.ClassDiagram.Label
import DotDiagram.Proofs.Dot.Token
import DotDiagram.Proofs.Markup.Table

/-! Class labels, read back. A label is one table; its bold cell has the name, below the
stereotype if there is one, and each of the other rows is an attribute or a method. -/

namespace DotDiagram

/-- What the label of a class shows. -/
structure ShownClass where
  stereotype : Option String
  name : String
  rows : List String
  deriving DecidableEq, Repr

/-- A text between double angle brackets. -/
def bracketed? : List Char → Option (List Char)
  | '<' :: '<' :: cs =>
    match cs.reverse with
    | '>' :: '>' :: inner => some inner.reverse
    | _ => none
  | _ => none

namespace ShownClass

def heading? (items : List Markup.Item) : Option (Option String × String) :=
  match Markup.lines? items with
  | some [name] => some (none, .ofList name)
  | some [mark, name] => (bracketed? mark).map fun s => (some (.ofList s), .ofList name)
  | _ => none

/-- The text of a row's only cell. -/
def row? : List (List Markup.Item) → Option String
  | [cell] => Markup.text? cell
  | _ => none

def ofTable? : List (List (List Markup.Item)) → Option ShownClass
  | [title] :: rows => do
    let [heading] ← Markup.parts? "B" title | none
    let (stereotype, name) ← heading? heading
    let rows ← rows.mapM row?
    return ⟨stereotype, name, rows⟩
  | _ => none

def read? (label : String) : Option ShownClass :=
  (Markup.read? label).bind fun items => (Markup.table? items).bind ofTable?

end ShownClass

theorem bracketed?_append (cs : List Char) :
    bracketed? ('<' :: '<' :: (cs ++ ['>', '>'])) = some cs := by
  simp [bracketed?]

namespace ClassNode

open Markup

variable (c : ClassNode)

/-- Interfaces and abstract classes have a stereotype of their own, and enumerations have one
unless another is given. Interfaces do not show attributes. -/
def shown : ShownClass where
  stereotype :=
    match c.kind, c.stereotype with
    | .interface, _ => some "interface"
    | .abstract, _ => some "abstract"
    | .enumeration, none => some "enumeration"
    | _, given => given
  name := c.name
  rows := if c.kind = .interface then c.methods else c.attributes ++ c.methods

theorem shown_eq : c.shown = ⟨c.shownStereotype, c.name, c.shownAttributes ++ c.methods⟩ := by
  unfold shown shownStereotype shownAttributes
  cases c.kind <;> cases c.stereotype <;> rfl

/-- The title as a tree. -/
def heading : List Item :=
  match c.shownStereotype with
  | some s => chars ("<<" ++ s ++ ">>").toList ++ .void lineBreak :: chars c.name.toList
  | none => chars c.name.toList

def sections : List (CellAlign × List (List Item)) :=
  [(.left, c.shownAttributes.map fun row => chars row.toList),
    (.left, c.methods.map fun row => chars row.toList)]

/-- The label as a tree. -/
def table : Item := tableItem .standard (tableCells c.heading c.sections)

theorem write_heading : write c.heading = c.title := by
  unfold heading title
  cases c.shownStereotype with
  | none => exact write_chars c.name
  | some s =>
    have hbreak : write [.void lineBreak] = "<BR/>" := rfl
    have hmark : escapeMarkup ("<<" ++ s ++ ">>") =
        "&lt;&lt;" ++ escapeMarkup s ++ "&gt;&gt;" := by
      rw [escapeMarkup_append, escapeMarkup_append]
      rfl
    dsimp only
    rw [← List.singleton_append, write_append, write_append, hbreak, write_chars, write_chars,
      hmark]
    simp only [String.append_assoc]
    rfl

theorem label_eq_write : c.label = write [c.table] := by
  have hrows (rows : List String) :
      (rows.map fun row => chars row.toList).map write = rows.map escapeMarkup := by
    rw [List.map_map]
    exact List.map_congr_left fun row _ => write_chars row
  rw [table, ← tableLabel_write, write_heading, label, sections, List.map_cons, List.map_cons,
    List.map_nil, hrows, hrows]

theorem legible_heading : Legible c.heading := by
  unfold heading
  cases c.shownStereotype with
  | none => exact legible_chars _
  | some s =>
    have hbreak : Legible [.void lineBreak] := by
      intro p hp
      rw [List.mem_singleton.mp hp]
      exact (by decide : lineBreak.Legible)
    exact legible_append.mpr ⟨legible_chars _, legible_cons.mpr ⟨hbreak, legible_chars _⟩⟩

theorem legible_table : Legible [c.table] := by
  refine legible_tableItem (by decide) (legible_tableCells c.legible_heading ?_)
  intro sec hsec row hrow
  have hchars : ∃ text : String, row = chars text.toList := by
    simp only [sections, List.mem_cons, List.not_mem_nil, or_false] at hsec
    rcases hsec with rfl | rfl
    · obtain ⟨text, -, rfl⟩ := List.mem_map.mp hrow
      exact ⟨text, rfl⟩
    · obtain ⟨text, -, rfl⟩ := List.mem_map.mp hrow
      exact ⟨text, rfl⟩
  obtain ⟨text, rfl⟩ := hchars
  exact legible_chars _

theorem heading?_heading : ShownClass.heading? c.heading = some (c.shownStereotype, c.name) := by
  unfold heading ShownClass.heading?
  cases c.shownStereotype with
  | none =>
    simp only [lines?_chars, String.ofList_toList]
  | some s =>
    have hmark : bracketed? ("<<" ++ s ++ ">>").toList = some s.toList := by
      rw [String.toList_append, String.toList_append]
      exact bracketed?_append s.toList
    simp only [lines?_break, lines?_chars, Option.map_some, hmark, String.ofList_toList]

theorem mapM_row? (rows : List String) :
    (rows.map fun row => [chars row.toList]).mapM ShownClass.row? = some rows := by
  have hrow : ∀ row ∈ rows, ShownClass.row? [chars row.toList] = some (id row) :=
    fun row _ => text?_chars row
  have hrows := mapM_map_eq_some hrow
  rwa [List.map_id] at hrows

theorem table?_table :
    table? [c.table] = some ([[.element ⟨"B", []⟩ c.heading]] ::
      (c.shownAttributes ++ c.methods).map fun row => [chars row.toList]) := by
  have hname : ∀ cell ∈ tableCells c.heading c.sections, cell.1.name = "TD" := by
    intro cell hc
    rcases List.mem_cons.mp hc with rfl | hc
    · rfl
    · obtain ⟨sec, -, hc⟩ := List.mem_flatMap.mp hc
      obtain ⟨row, -, rfl⟩ := List.mem_map.mp hc
      rfl
  rw [table, table?_tableItem _ hname]
  simp [tableCells, sections, titleCell, bodyCell, Function.comp_def]

theorem read?_label : ShownClass.read? c.label = some c.shown := by
  have hbold : parts? "B" [.element ⟨"B", []⟩ c.heading] = some [c.heading] := rfl
  have hrows := mapM_row? (c.shownAttributes ++ c.methods)
  rw [ShownClass.read?, label_eq_write, read?_write c.legible_table, Option.bind_some, table?_table,
    Option.bind_some, ShownClass.ofTable?]
  simp only [hbold, heading?_heading, hrows, Option.bind_eq_bind, Option.bind_some, shown_eq]
  rfl

theorem balanced_label : Dot.AngleBalanced c.label.toList := by
  rw [label_eq_write]
  exact c.legible_table.balanced

/-- Whatever text a class has, its label is one table, can be quoted between angle brackets,
and says just what the class shows. -/
theorem label_faithful :
    (∃ tag rows, Markup.read? c.label = some [.element tag rows] ∧ tag.name = "TABLE") ∧
      Dot.AngleBalanced c.label.toList ∧
      Dot.Spells ("<" ++ c.label ++ ">").toList [.markup c.label] ∧
      ShownClass.read? c.label = some c.shown ∧
      ∀ d : ClassNode, d.label = c.label → d.shown = c.shown := by
  have htree : Markup.read? c.label = some [c.table] := by
    rw [label_eq_write]
    exact read?_write c.legible_table
  refine ⟨⟨frameTag .standard, _, htree, rfl⟩, c.balanced_label,
    Dot.spells_markup c.balanced_label, c.read?_label, ?_⟩
  intro d hd
  have hread := d.read?_label
  rw [hd, c.read?_label] at hread
  exact (Option.some.inj hread).symm

/-- An interface whose attribute is not shown, with texts that look like markup. -/
def disguised : ClassNode :=
  ⟨.interface, "List<T>", some "</B>", ["&lt; : int"], ["map(f) : List<U>\n</TD>"], [], .empty⟩

theorem disguised_faithful :
    { disguised with attributes := [] }.label = disguised.label ∧
      { disguised with attributes := [] }.shown =
        ⟨some "interface", "List<T>", ["map(f) : List<U>\n</TD>"]⟩ := by
  have hlabel : { disguised with attributes := [] }.label = disguised.label := rfl
  obtain ⟨-, -, -, -, h⟩ := disguised.label_faithful
  exact ⟨hlabel, h _ hlabel⟩

end ClassNode

end DotDiagram
