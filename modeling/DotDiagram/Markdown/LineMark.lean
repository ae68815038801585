import DotDiagram.Markdown.Cursor
import DotDiagram.Markdown.Event
import DotDiagram.Markdown.Html

/-! The marks by which a line shows what block it belongs to. The readers are given a
line after its indentation, with all lines below it; a reader with a question mark
returns the text after the mark. -/

namespace DotDiagram.Markdown

/-- The text after the line feed that ends the line; a carriage return alone ends none. -/
def takeFullLine (cs : List Char) : List Char × List Char :=
  let line := cs.takeWhile (· != '\n')
  match cs.drop line.length with
  | c :: rest => (line ++ [c], rest)
  | [] => (line, [])

def ruleRest? (mark : Char) : Nat → List Char → Option (List Char)
  | n, [] => if 3 ≤ n then some [] else none
  | n, c :: cs =>
    if c == mark then ruleRest? mark (n + 1) cs
    else if c == ' ' || c == '\t' then ruleRest? mark n cs
    else if isLineEnd c && 3 ≤ n then newline? (c :: cs)
    else none

/-- Three or more asterisks, hyphens or underscores. -/
def rule? : List Char → Option (List Char)
  | [] => none
  | c :: cs => if c == '*' || c == '-' || c == '_' then ruleRest? c 0 (c :: cs) else none

/-- One to six number signs before white space. -/
def headingMark? (cs : List Char) : Option (HeadingLevel × List Char) :=
  let depth := runLength '#' cs
  let rest := cs.drop depth
  if (rest.head?.map isSpacingOrLineEnd).getD true then
    (HeadingLevel.ofDepth? depth).map (·, rest)
  else none

/-- A line of equals signs or hyphens, which makes a heading of the paragraph above. -/
def underline? : List Char → Option (HeadingLevel × List Char)
  | '=' :: cs => (blankLine? (cs.dropWhile (· == '='))).map (.h1, ·)
  | '-' :: cs => (blankLine? (cs.dropWhile (· == '-'))).map (.h2, ·)
  | _ => none

structure Fence where
  mark : Char
  length : Nat

/-- A fence begins a block of code; after backticks, no backtick may follow. -/
def fence? (cs : List Char) : Option (Fence × List Char) :=
  match cs with
  | [] => none
  | c :: _ =>
    let n := runLength c cs
    let rest := cs.drop n
    if (c == '~' || (c == '\x60' && !(takeFullLine rest).1.contains '\x60')) && 3 ≤ n then
      some (⟨c, n⟩, rest)
    else none

/-- The end of the text closes any fence. -/
def Fence.close? (f : Fence) : List Char → Option (List Char)
  | [] => some []
  | cs =>
    let n := runLength f.mark cs
    let rest := (cs.drop n).dropWhile (· == ' ')
    if f.length ≤ n && (newline? rest).isSome then some rest else none

/-- What begins a list item: the character that tells its list from others, the number
if there is one, and the width of both. -/
structure ListMark where
  mark : Char
  number : Option Nat
  width : Nat

def decimal (digits : List Char) : Nat :=
  digits.foldl (fun n d => 10 * n + (d.toNat - '0'.toNat)) 0

def listMark? (cs : List Char) : Option (ListMark × List Char) :=
  match cs with
  | [] => none
  | c :: rest =>
    if c == '-' || c == '+' || c == '*' then some (⟨c, none, 1⟩, rest)
    else
      let digits := cs.takeWhile Char.isDigit
      if digits.isEmpty || 9 < digits.length then none
      else
        match cs.drop digits.length with
        | d :: rest =>
          if d == '.' || d == ')' then
            some (⟨d, some (decimal digits), digits.length + 1⟩, rest)
          else none
        | [] => none

/-- Whether a list item begins here that may cut a paragraph short. Where a paragraph
could go on, only an item that has content may, and only with the number one. -/
def beginsItem (inParagraph : Bool) (cs : List Char) : Bool :=
  match listMark? cs with
  | none => false
  | some (mark, rest) =>
    let empty := ((blankLine? rest).map isBlankLine).getD false
    (rest.head?.map fun c => c == ' ' || c == '\t' || isLineEnd c).getD true &&
      (!inParagraph || (mark.number.getD 1 == 1 && !empty))

def beginsHtml : List Char → Bool
  | '<' :: cs => (blockEndMark? cs).isSome || beginsElementBlock cs
  | _ => false

/-- A line that cannot go on a paragraph, tables aside. -/
def interrupts (inParagraph : Bool) (cs : List Char) : Bool :=
  (newline? cs).isSome || (rule? cs).isSome || (headingMark? cs).isSome ||
    (fence? cs).isSome || cs.head? == some '>' || beginsItem inParagraph cs || beginsHtml cs

/-- What has been read of the row that aligns a table's columns, last first. -/
structure AlignmentRow where
  columns : List Alignment
  current : Alignment
  fresh : Bool
  bar : Bool
  hyphen : Bool
  hyphenInColumn : Bool

def alignmentsRest? : AlignmentRow → List Char → Option (AlignmentRow × List Char)
  | r, [] => some (r, [])
  | r, c :: cs =>
    if c == ' ' then alignmentsRest? r cs
    else if c == ':' then
      let current := match r.fresh, r.current with
        | true, .none => .left
        | false, .left => .center
        | false, .none => .right
        | _, a => a
      alignmentsRest? { r with current, fresh := false } cs
    else if c == '-' then
      alignmentsRest? { r with fresh := false, hyphen := true, hyphenInColumn := true } cs
    else if c == '|' then
      if r.hyphenInColumn then
        alignmentsRest? ⟨r.current :: r.columns, .none, true, true, r.hyphen, false⟩ cs
      else none
    else if isLineEnd c then (newline? (c :: cs)).map (r, ·)
    else none

/-- The row of hyphens and colons below the head of a table. -/
def alignments? (cs : List Char) : Option (List Alignment × List Char) :=
  let (indent, c) := (Cursor.ofLine cs).takeSpaces 4
  let (bar, cs) := match c.rest with
    | '|' :: cs => (true, cs)
    | cs => (false, cs)
  if indent = 4 || c.rest.isEmpty then none
  else
    match alignmentsRest? ⟨[], .none, true, bar, false, false⟩ cs with
    | none => none
    | some (r, rest) =>
      if r.bar && r.hyphen then
        some ((if r.fresh then r.columns else r.current :: r.columns).reverse, rest)
      else none

end DotDiagram.Markdown
