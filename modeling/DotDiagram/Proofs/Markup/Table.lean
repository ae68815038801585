import DotDiagram.Proofs.Dot.RoundTrip
import DotDiagram.Proofs.Markup.Balance
import DotDiagram.Text.Blank

/-! Tables in markup: how they are read, cell by cell, and that a table label is written
from a tree which is one table. -/

namespace DotDiagram

namespace Markup

/-- What stands in the elements of a name, if there are no others and only white space
between them. -/
def parts? (name : String) : List Item → Option (List (List Item))
  | [] => some []
  | .char c :: items => if isBlank c then parts? name items else none
  | .void _ :: _ => none
  | .element tag content :: items =>
    if tag.name = name then (parts? name items).map (content :: ·) else none

/-- The cells of a single table, row by row. -/
def table? : List Item → Option (List (List (List Item)))
  | [.element tag rows] =>
    if tag.name = "TABLE" then (parts? "TR" rows).bind fun rows => rows.mapM (parts? "TD")
    else none
  | _ => none

def lineBreak : Tag := ⟨"BR", []⟩

/-- Text with line breaks, and nothing else, as its lines. -/
def lines? : List Item → Option (List (List Char))
  | [] => some [[]]
  | .char c :: items => (lines? items).map (List.modifyHead (c :: ·))
  | .void tag :: items => if tag = lineBreak then (lines? items).map ([] :: ·) else none
  | .element _ _ :: _ => none

def text? (items : List Item) : Option String :=
  match lines? items with
  | some [text] => some (.ofList text)
  | _ => none

def chars (cs : List Char) : List Item := cs.map .char

theorem lines?_chars (cs : List Char) : lines? (chars cs) = some [cs] := by
  induction cs with
  | nil => rfl
  | cons c cs ih =>
    simp only [chars] at ih
    rw [chars, List.map_cons, lines?, ih]
    rfl

theorem lines?_break (cs : List Char) (items : List Item) :
    lines? (chars cs ++ .void lineBreak :: items) = (lines? items).map (cs :: ·) := by
  induction cs with
  | nil => exact if_pos rfl
  | cons c cs ih =>
    simp only [chars] at ih
    rw [chars, List.map_cons, List.cons_append, lines?, ih, Option.map_map]
    rfl

theorem text?_chars (s : String) : text? (chars s.toList) = some s := by
  rw [text?, lines?_chars]
  exact congrArg some String.ofList_toList

theorem toList_write (items : List Item) :
    (write items).toList = (pieces items).flatMap Piece.chars := String.toList_ofList

theorem write_append (items items' : List Item) :
    write (items ++ items') = write items ++ write items' := by
  apply String.toList_injective
  simp only [String.toList_append, toList_write, pieces_append, List.flatMap_append]

theorem pieces_chars (cs : List Char) : pieces (chars cs) = cs.map .char := by
  induction cs with
  | nil => rfl
  | cons c cs ih =>
    simp only [chars] at ih
    rw [chars, List.map_cons, pieces, ih]
    rfl

theorem write_chars (s : String) : write (chars s.toList) = escapeMarkup s := by
  rw [write, pieces_chars, List.flatMap_map]
  rfl

theorem escapeMarkup_append (s t : String) :
    escapeMarkup (s ++ t) = escapeMarkup s ++ escapeMarkup t := by
  rw [escapeMarkup, String.toList_append, List.flatMap_append, String.ofList_append]
  rfl

theorem toList_write_element (tag : Tag) (content : List Item) :
    (write [.element tag content]).toList =
      '<' :: (tag.chars ++ '>' :: ((write content).toList ++ '<' :: '/' ::
        (tag.name.toList ++ ['>']))) := by
  simp [toList_write, pieces, Item.pieces, Piece.chars]

theorem legible_append {items items' : List Item} :
    Legible (items ++ items') ↔ Legible items ∧ Legible items' := by
  simp only [Legible, pieces_append, List.mem_append, or_imp, forall_and]

theorem legible_cons {item : Item} {items : List Item} :
    Legible (item :: items) ↔ Legible [item] ∧ Legible items := by
  rw [← List.singleton_append, legible_append]

theorem legible_element {tag : Tag} {content : List Item} :
    Legible [.element tag content] ↔ tag.Legible ∧ Legible content := by
  simp only [Legible, pieces, Item.pieces, List.append_nil, List.mem_cons, List.mem_append,
    List.not_mem_nil, or_false, or_imp, forall_and, forall_eq, Piece.Legible]
  exact ⟨fun h => ⟨h.1, h.2.1⟩, fun h => ⟨h.1, h.2, h.1.name⟩⟩

theorem legible_char (c : Char) : Legible [.char c] := by
  intro p hp
  rw [List.mem_singleton.mp hp]
  trivial

theorem legible_flatMap {α : Type} {f : α → List Item} {xs : List α}
    (h : ∀ x ∈ xs, Legible (f x)) : Legible (xs.flatMap f) := by
  induction xs with
  | nil => nofun
  | cons x xs ih =>
    have hxs := ih fun y hy => h y (List.mem_cons_of_mem x hy)
    exact legible_append.mpr ⟨h x List.mem_cons_self, hxs⟩

theorem legible_chars (cs : List Char) : Legible (chars cs) := by
  intro p hp
  rw [pieces_chars] at hp
  obtain ⟨c, -, rfl⟩ := List.mem_map.mp hp
  trivial

/-- A cell is a tag with what stands in it. -/
abbrev Cell := Tag × List Item

def tableRow (cell : Cell) : List Item :=
  [.char ' ', .char ' ', .element ⟨"TR", []⟩ [.element cell.1 cell.2], .char '\n']

def titleCell (title : List Item) : Cell := (⟨"TD", []⟩, [.element ⟨"B", []⟩ title])

def bodyCell (align : CellAlign) (content : List Item) : Cell :=
  (⟨"TD", [("ALIGN", align.name)]⟩, content)

def tableCells (title : List Item) (sections : List (CellAlign × List (List Item))) : List Cell :=
  titleCell title :: sections.flatMap fun sec => sec.2.map (bodyCell sec.1)

def frameTag (frame : TableFrame) : Tag :=
  ⟨"TABLE", [("BORDER", toString frame.border), ("CELLBORDER", toString frame.cellBorder),
    ("CELLSPACING", toString frame.cellSpacing), ("CELLPADDING", toString frame.cellPadding)]⟩

def tableItem (frame : TableFrame) (cells : List Cell) : Item :=
  .element (frameTag frame) (.char '\n' :: cells.flatMap tableRow)

theorem toList_openTag (frame : TableFrame) :
    frame.openTag.toList = '<' :: ((frameTag frame).chars ++ ['>']) := by
  have hs (s : String) : toString s = s := rfl
  obtain ⟨border, cellBorder, cellSpacing, cellPadding⟩ := frame
  unfold TableFrame.openTag frameTag Tag.chars
  dsimp only
  -- What the numbers look like does not matter.
  generalize toString border = a
  generalize toString cellBorder = b
  generalize toString cellSpacing = c
  generalize toString cellPadding = d
  simp only [hs, attrChars, String.toList_append, List.flatMap_cons, List.flatMap_nil]
  simp

/-- The line of a row with one cell. -/
def rowLine (cell : Cell) : String :=
  "  <TR><" ++ .ofList cell.1.chars ++ ">" ++ write cell.2 ++ "</" ++ cell.1.name ++ "></TR>"

theorem toList_write_tableRow (cell : Cell) :
    (write (tableRow cell)).toList = (rowLine cell).toList ++ ['\n'] := by
  have hspace : escapeMarkupChar ' ' = [' '] := rfl
  have hbreak : escapeMarkupChar '\n' = ['\n'] := rfl
  simp only [tableRow, rowLine, toList_write, pieces, Item.pieces, String.toList_append,
    String.toList_ofList, List.flatMap_cons, List.flatMap_append, List.flatMap_nil, Piece.chars,
    hspace, hbreak]
  simp [Tag.chars]

theorem rowLine_titleCell (title : List Item) :
    rowLine (titleCell title) = "  <TR><TD><B>" ++ write title ++ "</B></TD></TR>" := by
  apply String.toList_injective
  simp [rowLine, titleCell, toList_write_element, Tag.chars]

theorem rowLine_bodyCell (align : CellAlign) (content : List Item) :
    rowLine (bodyCell align content) =
      "  <TR><TD ALIGN=\"" ++ align.name ++ "\">" ++ write content ++ "</TD></TR>" := by
  apply String.toList_injective
  simp [rowLine, bodyCell, Tag.chars, attrChars]

theorem lines_section (align : CellAlign) (rows : List (List Item)) :
    Section.lines ⟨align, rows.map write⟩ = (rows.map (bodyCell align)).map rowLine := by
  simp only [Section.lines, List.map_map, Function.comp_def, rowLine_bodyCell]

theorem toList_write_rows (cells : List Cell) :
    (write (cells.flatMap tableRow)).toList = Dot.unlines (cells.map rowLine) := by
  induction cells with
  | nil => rfl
  | cons cell cells ih =>
    rw [List.flatMap_cons, write_append, String.toList_append, ih, toList_write_tableRow]
    rfl

theorem tableLabel_write (frame : TableFrame) (title : List Item)
    (sections : List (CellAlign × List (List Item))) :
    tableLabel (write title) (sections.map fun sec => ⟨sec.1, sec.2.map write⟩) frame =
      write [tableItem frame (tableCells title sections)] := by
  have hlines : (sections.map fun sec => (⟨sec.1, sec.2.map write⟩ : Section)).flatMap
      Section.lines = (sections.flatMap fun sec => sec.2.map (bodyCell sec.1)).map rowLine := by
    simp only [List.flatMap_map, lines_section, List.map_flatMap]
  have hbreak (items : List Item) :
      (write (.char '\n' :: items)).toList = '\n' :: (write items).toList := by
    rw [toList_write, toList_write]
    rfl
  apply String.toList_injective
  rw [tableLabel, Dot.toList_intercalate_concat, hlines, tableItem, toList_write_element, hbreak,
    toList_write_rows, tableCells, List.map_cons, rowLine_titleCell, Dot.unlines, Dot.unlines,
    List.cons_append, List.cons_append, List.flatMap_cons, toList_openTag]
  simp [frameTag]

theorem parts?_rows (cells : List Cell) :
    parts? "TR" (cells.flatMap tableRow) =
      some (cells.map fun cell => [.element cell.1 cell.2]) := by
  induction cells with
  | nil => rfl
  | cons cell cells ih =>
    have hrow : parts? "TR" (tableRow cell ++ cells.flatMap tableRow) =
        (parts? "TR" (cells.flatMap tableRow)).map ([.element cell.1 cell.2] :: ·) := rfl
    rw [List.flatMap_cons, hrow, ih]
    rfl

theorem mapM_map_eq_some {α β γ : Type} {f : α → β} {g : β → Option γ} {h : α → γ} {xs : List α}
    (hg : ∀ x ∈ xs, g (f x) = some (h x)) : (xs.map f).mapM g = some (xs.map h) := by
  induction xs with
  | nil => rfl
  | cons x xs ih =>
    rw [List.map_cons, List.mapM_cons, hg x List.mem_cons_self,
      ih fun y hy => hg y (List.mem_cons_of_mem x hy)]
    rfl

/-- A table is read cell by cell. -/
theorem table?_tableItem (frame : TableFrame) {cells : List Cell}
    (h : ∀ cell ∈ cells, cell.1.name = "TD") :
    table? [tableItem frame cells] = some (cells.map fun cell => [cell.2]) := by
  have hcells : (cells.map fun cell => [Item.element cell.1 cell.2]).mapM (parts? "TD") =
      some (cells.map fun cell => [cell.2]) := by
    apply mapM_map_eq_some
    intro cell hc
    rw [parts?, if_pos (h cell hc)]
    rfl
  have hrows : parts? "TR" (.char '\n' :: cells.flatMap tableRow) =
      parts? "TR" (cells.flatMap tableRow) := rfl
  have hname : (frameTag frame).name = "TABLE" := rfl
  rw [tableItem, table?, if_pos hname, hrows, parts?_rows, Option.bind_some, hcells]

theorem legible_tableItem {frame : TableFrame} (hf : (frameTag frame).Legible) {cells : List Cell}
    (h : ∀ cell ∈ cells, cell.1.Legible ∧ Legible cell.2) : Legible [tableItem frame cells] := by
  have hrow : (⟨"TR", []⟩ : Tag).Legible := by decide
  have hrows : Legible (cells.flatMap tableRow) := by
    apply legible_flatMap
    intro cell hc
    have hcell := legible_element.mpr ⟨hrow, legible_element.mpr (h cell hc)⟩
    exact legible_cons.mpr ⟨legible_char _, legible_cons.mpr ⟨legible_char _,
      legible_cons.mpr ⟨hcell, legible_char _⟩⟩⟩
  exact legible_element.mpr ⟨hf, legible_cons.mpr ⟨legible_char _, hrows⟩⟩

theorem legible_tableCells {title : List Item} {sections : List (CellAlign × List (List Item))}
    (ht : Legible title) (hs : ∀ sec ∈ sections, ∀ row ∈ sec.2, Legible row) :
    ∀ cell ∈ tableCells title sections, cell.1.Legible ∧ Legible cell.2 := by
  have hcell : (⟨"TD", []⟩ : Tag).Legible := by decide
  have hbold : (⟨"B", []⟩ : Tag).Legible := by decide
  have halign (align : CellAlign) : (⟨"TD", [("ALIGN", align.name)]⟩ : Tag).Legible := by
    cases align <;> decide
  intro cell hc
  rcases List.mem_cons.mp hc with rfl | hc
  · exact ⟨hcell, legible_element.mpr ⟨hbold, ht⟩⟩
  · obtain ⟨sec, hsec, hc⟩ := List.mem_flatMap.mp hc
    obtain ⟨row, hrow, rfl⟩ := List.mem_map.mp hc
    exact ⟨halign sec.1, hs sec hsec row hrow⟩

end Markup

end DotDiagram
