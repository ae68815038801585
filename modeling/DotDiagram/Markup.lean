import DotDiagram.AttrValue

/-! HTML-like markup: escaped text, and labels that are one bordered table. -/

namespace DotDiagram

def escapeMarkupChar (c : Char) : List Char :=
  if c = '&' then "&amp;".toList
  else if c = '<' then "&lt;".toList
  else if c = '>' then "&gt;".toList
  else if c = '"' then "&quot;".toList
  else if c = '\'' then "&apos;".toList
  else [c]

def escapeMarkup (s : String) : String := String.ofList (s.toList.flatMap escapeMarkupChar)

inductive CellAlign where
  | left | right | center
  deriving DecidableEq, Repr

def CellAlign.name : CellAlign → String
  | .left => "LEFT"
  | .right => "RIGHT"
  | .center => "CENTER"

/-- Rows of a label table that share an alignment. The rows are markup. -/
structure Section where
  align : CellAlign
  rows : List String
  deriving DecidableEq, Repr

structure TableFrame where
  border : Nat
  cellBorder : Nat
  cellSpacing : Nat
  cellPadding : Nat
  deriving DecidableEq, Repr

def TableFrame.standard : TableFrame := ⟨0, 1, 0, 4⟩

def TableFrame.openTag (frame : TableFrame) : String :=
  s!"<TABLE BORDER=\"{frame.border}\" CELLBORDER=\"{frame.cellBorder}\" " ++
    s!"CELLSPACING=\"{frame.cellSpacing}\" CELLPADDING=\"{frame.cellPadding}\">"

def Section.lines (sec : Section) : List String :=
  sec.rows.map fun row => "  <TR><TD ALIGN=\"" ++ sec.align.name ++ "\">" ++ row ++ "</TD></TR>"

/-- A bold title row, then the rows of all sections, one line each. -/
def tableLabel (title : String) (sections : List Section) (frame : TableFrame) : String :=
  let titleRow := "  <TR><TD><B>" ++ title ++ "</B></TD></TR>"
  String.intercalate "\n"
    ([frame.openTag, titleRow] ++ sections.flatMap Section.lines ++ ["</TABLE>"])

end DotDiagram
