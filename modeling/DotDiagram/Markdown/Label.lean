import DotDiagram.Markdown.Event
import DotDiagram.Markup
import DotDiagram.Text.Blank

/-! Labels from Markdown events. Open blocks stand on a stack, each with the markup
written in it so far; a block that ends is wrapped and handed to the one around it. -/

namespace DotDiagram.Markdown

inductive Frame where
  | paragraph
  | heading (level : HeadingLevel)
  | emphasis
  | strong
  | strikethrough
  | link
  | image
  | list (next : Option Nat)
  | item (marker : String)
  | codeBlock
  | quote
  | table
  | tableHead
  | tableRow
  | tableCell
  | htmlBlock
  deriving DecidableEq

/-- Where the writer stands in the last table that began. -/
structure TableState where
  alignments : List Alignment
  inHead : Bool
  column : Nat
  deriving DecidableEq

structure LabelWriter where
  written : String
  frames : List (Frame × String)
  table : TableState
  deriving DecidableEq

def bullet : String := "&#8226; "

def ruleLine : String := "──────────────────"

def HeadingLevel.pointSize : HeadingLevel → String
  | .h1 => "20"
  | .h2 => "18"
  | .h3 => "16"
  | .h4 => "14"
  | .h5 => "12"
  | .h6 => "11"

def Alignment.cellTag : Alignment → String
  | .none => "<TD>"
  | .left => "<TD ALIGN=\"LEFT\">"
  | .center => "<TD ALIGN=\"CENTER\">"
  | .right => "<TD ALIGN=\"RIGHT\">"

def leftRow (content : String) : String := "<TR><TD ALIGN=\"LEFT\">" ++ content ++ "</TD></TR>"

def nestedRow (content : String) : String := "<TR><TD>" ++ content ++ "</TD></TR>"

def listTable (rows : String) : String :=
  "<TABLE BORDER=\"0\" CELLBORDER=\"0\" CELLSPACING=\"0\" CELLPADDING=\"2\">" ++ rows ++ "</TABLE>"

def codeTable (rows : String) : String :=
  "<TABLE BORDER=\"0\" CELLBORDER=\"1\" CELLSPACING=\"0\" CELLPADDING=\"2\">" ++ rows ++ "</TABLE>"

def quoteTable (rows : String) : String :=
  "<TABLE BORDER=\"0\" CELLBORDER=\"0\"><TR><TD WIDTH=\"20\"></TD><TD ALIGN=\"LEFT\">" ++
    "<TABLE BORDER=\"0\" CELLBORDER=\"0\">" ++ rows ++ "</TABLE></TD></TR></TABLE>"

def gridTable (rows : String) : String :=
  "<TABLE BORDER=\"1\" CELLBORDER=\"1\" CELLSPACING=\"0\" CELLPADDING=\"4\">" ++ rows ++ "</TABLE>"

def monospaced (content : String) : String :=
  "<FONT FACE=\"monospace\">" ++ content ++ "</FONT>"

def enlarged (pointSize content : String) : String :=
  "<FONT POINT-SIZE=\"" ++ pointSize ++ "\"><B>" ++ content ++ "</B></FONT>"

def splitLines : List Char → List (List Char)
  | [] => [[]]
  | c :: cs =>
    match splitLines cs with
    | [] => [[c]]
    | line :: lines => if c = '\n' then [] :: line :: lines else (c :: line) :: lines

/-- An empty line of code shows as a space. -/
def codeRow (line : List Char) : String :=
  leftRow (monospaced (if line.all isBlank then " " else String.ofList line))

def codeRows (text : String) : String :=
  String.join ((splitLines (trimRight text.toList)).map codeRow)

/-- Code that is all blank looks like text. -/
def codeSpan (code : String) : String :=
  if code.toList.all isBlank then escapeMarkup code else monospaced (escapeMarkup code)

namespace LabelWriter

def empty : LabelWriter := ⟨"", [], ⟨[], false, 0⟩⟩

def push (w : LabelWriter) (s : String) : LabelWriter :=
  match w.frames with
  | [] => { w with written := w.written ++ s }
  | (frame, content) :: rest => { w with frames := (frame, content ++ s) :: rest }

def openFrame (w : LabelWriter) (frame : Frame) : LabelWriter :=
  { w with frames := (frame, "") :: w.frames }

def inItem (w : LabelWriter) : Bool :=
  match w.frames with
  | (.item _, _) :: _ => true
  | _ => false

/-- The marker of an item that begins, taken from the innermost open list. -/
def takeMarker : List (Frame × String) → String × List (Frame × String)
  | [] => (bullet, [])
  | (.list (some n), content) :: rest =>
    (toString n ++ ". ", (.list (some (n + 1)), content) :: rest)
  | (.list none, content) :: rest => (bullet, (.list none, content) :: rest)
  | frame :: rest => ((takeMarker rest).1, frame :: (takeMarker rest).2)

def start (w : LabelWriter) : Tag → LabelWriter
  | .paragraph => w.openFrame .paragraph
  | .heading level => w.openFrame (.heading level)
  | .emphasis => w.openFrame .emphasis
  | .strong => w.openFrame .strong
  | .strikethrough => w.openFrame .strikethrough
  | .link => w.openFrame .link
  | .image => w.openFrame .image
  | .list first => w.openFrame (.list first)
  | .item =>
    let marked := takeMarker w.frames
    { w with frames := (.item marked.1, "") :: marked.2 }
  | .codeBlock => w.openFrame .codeBlock
  | .quote => w.openFrame .quote
  | .table alignments => { w with table := ⟨alignments, false, 0⟩ }.openFrame .table
  | .tableHead =>
    { w with table := { w.table with inHead := true, column := 0 } }.openFrame .tableHead
  | .tableRow => { w with table := { w.table with column := 0 } }.openFrame .tableRow
  | .tableCell => w.openFrame .tableCell
  | .htmlBlock | .other => w.openFrame .htmlBlock

/-- A cell of the table's current column. -/
def cell (table : TableState) (content : String) : String :=
  let tag := (table.alignments[table.column]?.getD .none).cellTag
  if table.inHead then tag ++ "<B>" ++ content ++ "</B></TD>" else tag ++ content ++ "</TD>"

/-- Hands over what was written in a block of which the writer has left the frame. -/
def close (w : LabelWriter) (frame : Frame) (content : String) : LabelWriter :=
  match frame with
  | .paragraph =>
    let text := trimRightText content
    w.push (if w.inItem || text.isEmpty then text else leftRow text)
  | .heading level =>
    w.push (leftRow (enlarged level.pointSize content))
  | .emphasis => w.push ("<I>" ++ content ++ "</I>")
  | .strong => w.push ("<B>" ++ content ++ "</B>")
  | .strikethrough => w.push ("<S>" ++ content ++ "</S>")
  | .link => w.push content
  | .image => w.push (if content.isEmpty then "[image]" else "[" ++ content ++ "]")
  | .list _ => w.push (if w.inItem then listTable content else nestedRow (listTable content))
  | .item marker => w.push (leftRow (marker ++ content))
  | .codeBlock => w.push (nestedRow (codeTable (codeRows content)))
  | .quote => w.push (nestedRow (quoteTable content))
  | .table => w.push (nestedRow (gridTable content))
  | .tableHead =>
    { w with table := { w.table with inHead := false } }.push ("<TR>" ++ content ++ "</TR>")
  | .tableRow => w.push ("<TR>" ++ content ++ "</TR>")
  | .tableCell =>
    { w with table := { w.table with column := w.table.column + 1 } }.push (cell w.table content)
  | .htmlBlock => w.push content

/-- A surplus `stop` does nothing. -/
def stop (w : LabelWriter) : LabelWriter :=
  match w.frames with
  | [] => w
  | (frame, content) :: rest => close { w with frames := rest } frame content

def event (w : LabelWriter) : Event → LabelWriter
  | .start tag => w.start tag
  | .stop => w.stop
  | .text s => w.push (escapeMarkup s)
  | .code s => w.push (codeSpan s)
  | .html s => w.push (escapeMarkup s)
  | .softBreak => w.push " "
  | .hardBreak => w.push "<BR/>"
  | .rule => w.push (leftRow ruleLine)
  | .taskMarker checked => w.push (if checked then "[x] " else "[ ] ")
  | .other => w

/-- Blocks left open end with the stream. -/
def finish (w : LabelWriter) : String :=
  (w.frames.length.repeat stop w).written

end LabelWriter

def body (events : List Event) : String :=
  (events.foldl LabelWriter.event .empty).finish

/-- The label is one table around all rows, or empty. -/
def labelOfEvents (events : List Event) : String :=
  let rows := trimText (body events)
  if rows.isEmpty then ""
  else "<TABLE BORDER=\"0\" CELLBORDER=\"0\" CELLSPACING=\"0\">" ++ rows ++ "</TABLE>"

end DotDiagram.Markdown
