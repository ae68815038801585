import DotDiagram.Markdown.OpenBlocks

/-! Reading blocks. Each line first shows which of the open containers it goes on with and
which it opens; what is left of it is the line of a block in the innermost one. Readers
of blocks return the text from the next line on. -/

namespace DotDiagram.Markdown

/-- The mark of a list item and the place after it and one column of spaces. -/
def itemMark? (c : Cursor) : Option (ListMark × Cursor) :=
  match listMark? c.rest with
  | none => none
  | some (mark, _) =>
    if mark.number.isNone && (rule? c.rest).isSome then none
    else
      let after := c.skip mark.width
      match after.spaces? 1 with
      | some after => some (mark, after)
      | none => if after.atLineEnd then some (mark, after) else none

/-- A box, checked or not, before white space. -/
def taskMark? (c : Cursor) : Option (Bool × Cursor) :=
  let c := c.skipSpaces 3
  match c.rest with
  | '[' :: x :: ']' :: next :: _ =>
    if !isSpacingOrLineEnd next then none
    else if isSpacing x then some (false, c.skip 3)
    else if x == 'x' || x == 'X' then some (true, c.skip 3)
    else none
  | _ => none

/-- Where a line stands after its containers: at its content, or at the next line if the
line began an item and nothing else. -/
inductive LineContent where
  | content (c : Cursor)
  | ended (below : List Char)

/-- The containers that a line opens; each takes at least one character. -/
def openContainers : Nat → OpenBlocks → Cursor → OpenBlocks × LineContent
  | 0, s, c => (s, .content c)
  | fuel + 1, s, c =>
    let (indent, inner) := c.takeSpaces 4
    if indent = 4 then (s, .content c)
    else
      match itemMark? inner with
      | some (mark, after) =>
        let width := indent + mark.width + 1
        match blankLine? after.rest with
        | some below => ({ s.openItem mark width none with inEmptyItem := true }, .ended below)
        | none =>
          let (n, body) := after.takeSpaces 4
          let (width, body) := if n < 4 then (width + n, body) else (width, after)
          match taskMark? body with
          | none => openContainers fuel (s.openItem mark width none) body
          | some (task, body) =>
            let s := s.openItem mark width (some task)
            match blankLine? body.rest with
            | some below => ({ s with inEmptyItem := true }, .ended below)
            | none => openContainers fuel s body
      | none =>
        if inner.rest.head? == some '>' then
          openContainers fuel s.openQuote ((inner.skip 1).skipSpaces 1)
        else (s, .content c)

/-- The pieces of a line between its bars. After a backslash, a bar is no mark; with
`pairs`, a backslash after a backslash takes away no mark. -/
def splitBars (pairs escaped : Bool) : List Char → List (List Char)
  | [] => [[]]
  | c :: cs =>
    if c == '|' && !escaped then [] :: splitBars pairs false cs
    else
      match splitBars pairs (c == '\\' && !(pairs && escaped)) cs with
      | [] => [[c]]
      | piece :: pieces => (c :: piece) :: pieces

def isBlankPiece (cs : List Char) : Bool := cs.all isSpacing

/-- The columns that the head of a table has; bars at its ends bound no column. -/
def columnCount (pieces : List (List Char)) : Nat :=
  pieces.length - (if (pieces.head?.map isBlankPiece).getD false then 1 else 0) -
    (if (pieces.getLast?.map isBlankPiece).getD false then 1 else 0)

def rowCells (line : List Char) : List Source :=
  let pieces := splitBars false false line
  let pieces := if line.head? == some '|' then pieces.drop 1 else pieces
  let pieces :=
    if (pieces.getLast?.map isBlankPiece).getD false then pieces.dropLast else pieces
  pieces.map fun piece => ⟨true, piece.dropWhile isSpacing⟩

def fitRow (n : Nat) (cells : List Source) : List Source :=
  cells.take n ++ List.replicate (n - cells.length) ⟨true, []⟩

def lineText (cs : List Char) : List Char := cs.takeWhile (!isLineEnd ·)

def trimCarriageReturn (line : List Char) : List Char :=
  match line.reverse with
  | '\n' :: '\r' :: rest => (('\n' :: rest).reverse)
  | _ => line

/-- A title within a link definition: no line of it is blank. -/
def definitionTitleRest? (closing : Char) : List Char → Option (List Char)
  | [] => none
  | '\\' :: _ :: cs => definitionTitleRest? closing cs
  | c :: cs =>
    if c == closing then some cs
    else if c == '\n' && isBlankLine cs then none
    else definitionTitleRest? closing cs

def definitionTitle? : List Char → Option (List Char)
  | c :: cs => (titleEnd? c).bind fun closing => definitionTitleRest? closing cs
  | [] => none

namespace OpenBlocks

/-- Whether two lines are the head of a table: as many columns as alignments. -/
def tableHead? (s : OpenBlocks) (pairs : Bool) (cs : List Char) :
    Option (List Alignment × List Char) :=
  let line := lineText cs
  let pieces := splitBars pairs false line
  match cs.drop line.length with
  | [] => none
  | below =>
    if pieces.length < 2 then none
    else
      match (newline? below).bind s.followAll? with
      | none => none
      | some c =>
        match alignments? c.rest with
        | some (alignments, rest) =>
          if alignments.length = columnCount pieces then some (alignments, rest) else none
        | none => none

/-- A table whose head begins with a bar may follow a paragraph. -/
def cutsParagraph (s : OpenBlocks) (followsAll : Bool) (cs : List Char) : Bool :=
  interrupts followsAll cs || (cs.head? == some '|' && (s.tableHead? false cs).isSome)

/-- A blank line in a quote says nothing about the list around the quote. -/
def readBlank (s : OpenBlocks) : OpenBlocks :=
  match s.list, s.containers with
  | none, .quote _ :: _ => s
  | none, .item before list indent task :: outer =>
    { s with
      containers := .item before list (if s.inEmptyItem then 0 else indent) task :: outer
      afterBlank := true }
  | _, _ => { s with afterBlank := true }

/-- The lines of indented code from a cursor on, whether the last one read is blank, and
the text below. Blank lines belong to the code only if more code follows. -/
def indentedLines (s : OpenBlocks) :
    Nat → Bool → Cursor → List Char → List Char × Bool × List Char
  | 0, blank, c, _ => ([], blank, c.rest)
  | fuel + 1, blank, c, held =>
    let (line, below) := takeFullLine c.rest
    let held := held ++ List.replicate c.pending ' ' ++ trimCarriageReturn line
    let (kept, held) := if blank then ([], held) else (held, [])
    match s.followAll? below with
    | none => (kept, blank, below)
    | some d =>
      let (n, d) := d.takeSpaces 4
      if (n = 4 || d.atLineEnd) && !d.rest.isEmpty then
        let (more, blank, below) := indentedLines s fuel (isBlankLine d.rest) d held
        (kept ++ more, blank, below)
      else (kept, blank, below)

def readIndentedCode (s : OpenBlocks) (c : Cursor) : OpenBlocks × List Char :=
  let (code, blank, below) := s.indentedLines (c.rest.length + 1) false c []
  ({ s.add (.code (String.ofList code)) with afterBlank := blank }, below)

def fencedLines (s : OpenBlocks) (fence : Fence) (indent : Nat) :
    Nat → List Char → List Char × List Char
  | 0, cs => ([], cs)
  | fuel + 1, cs =>
    match s.followAll? cs with
    | none => ([], cs)
    | some c =>
      let c := c.skipSpaces indent
      let (n, d) := c.takeSpaces (4 - indent)
      match if n < 4 - indent then fence.close? d.rest else none with
      | some rest => ([], (blankLine? rest).getD rest)
      | none =>
        let (line, below) := takeFullLine c.rest
        let (more, below) := fencedLines s fence indent fuel below
        (List.replicate c.pending ' ' ++ trimCarriageReturn line ++ more, below)

def readFencedCode (s : OpenBlocks) (fence : Fence) (indent : Nat) (rest : List Char) :
    OpenBlocks × List Char :=
  let below := (takeFullLine rest).2
  let (code, below) := s.fencedLines fence indent (below.length + 1) below
  (s.add (.code (String.ofList code)), below)

def holdsMark (mark line : List Char) : Bool := (splitAtFirst? mark line).isSome

/-- The lines of a block of HTML: up to a line that holds the end mark if there is one,
else up to a blank line. -/
def htmlLines (s : OpenBlocks) (mark : Option String) : Nat → Cursor → List Char × List Char
  | 0, c => ([], c.rest)
  | fuel + 1, c =>
    let (line, below) := takeFullLine c.rest
    let text := List.replicate c.pending ' ' ++ trimCarriageReturn line
    match s.followAll? below with
    | none => (text, below)
    | some d =>
      let ended := match mark with
        | some m => holdsMark m.toList line
        | none => isBlankLine d.rest
      if ended || d.rest.isEmpty then (text, below)
      else
        let (more, below) := htmlLines s mark fuel d
        (text ++ more, below)

def readHtml (s : OpenBlocks) (mark : Option String) (indent : Nat) (cs : List Char) :
    OpenBlocks × List Char :=
  let (text, below) := s.htmlLines mark (cs.length + 1) ⟨cs, 0, indent⟩
  (s.add (.html (String.ofList text)), below)

/-- The title of a heading: number signs at its end do not belong to it. -/
def headingText (line : List Char) : List Char :=
  let text := (line.reverse.dropWhile (· == ' '))
  let bare := text.dropWhile (· == '#')
  if bare.isEmpty then []
  else if bare.head? == some ' ' then (bare.dropWhile (· == ' ')).reverse
  else text.reverse

def readHeading (s : OpenBlocks) (level : HeadingLevel) (rest : List Char) :
    OpenBlocks × List Char :=
  let line := lineText rest
  let below := (newline? (rest.drop line.length)).getD []
  (s.add (.heading level ⟨false, headingText (line.dropWhile isSpacing)⟩), below)

/-- The rows below the head of a table. -/
def tableRows (s : OpenBlocks) (columns : Nat) :
    Nat → List Char → List (List Source) × List Char
  | 0, cs => ([], cs)
  | fuel + 1, cs =>
    match s.followAll? cs with
    | none => ([], cs)
    | some c =>
      let start := skipGap c.rest
      let line := lineText start
      let cells := rowCells line
      if interrupts false start || cells.isEmpty then ([], cs)
      else
        let below := (newline? (start.drop line.length)).getD []
        let (rows, below) := tableRows s columns fuel below
        (fitRow columns cells :: rows, below)

/-- The lines below the first line of a paragraph, each after its line end; the level if
the last of them makes a heading of the paragraph; and the text below. -/
def paragraphLines (s : OpenBlocks) :
    Nat → List Char → List Char × Option HeadingLevel × List Char
  | 0, cs => ([], none, cs)
  | fuel + 1, cs =>
    let below := (newline? cs).getD cs
    let (n, c) := s.follow below
    let followsAll := n == s.containers.length
    let (indent, inner) := c.takeSpaces 4
    let underline := if followsAll && indent < 4 then underline? inner.rest else none
    match underline with
    | some (level, rest) => ([], some level, rest)
    | none =>
      if (indent < 4 && s.cutsParagraph followsAll inner.rest) ||
          (newline? (skipGap inner.rest)).isSome then ([], none, below)
      else
        let line := lineText c.rest
        let (more, level, rest) := paragraphLines s fuel (c.rest.drop line.length)
        (cs.take (cs.length - below.length) ++ line ++ more, level, rest)

def readParagraph (s : OpenBlocks) (cs : List Char) : OpenBlocks × List Char :=
  let line := lineText cs
  match s.tableHead? true cs with
  | some (alignments, below) =>
    let columns := alignments.length
    let (rows, below) := s.tableRows columns (below.length + 1) below
    (s.add (.table alignments (fitRow columns (rowCells line)) rows), below)
  | none =>
    let (more, level, below) := s.paragraphLines (cs.length + 1) (cs.drop line.length)
    let content : Source := ⟨false, line ++ more⟩
    (s.add (match level with
      | some level => .heading level content
      | none => .paragraph content), below)

/-- Blanks with at most one line end, after which the line goes on with all containers;
whether there was a line end, and the text after it. -/
def definitionSpace? (s : OpenBlocks) (cs : List Char) : Option (Bool × List Char) :=
  let after := cs.dropWhile isSpacing
  match newline? after with
  | none => some (false, after)
  | some below =>
    match s.followAll? below with
    | none => none
    | some c =>
      let after := c.rest.dropWhile isSpacing
      if (newline? after).isSome then none else some (true, after)

/-- The text after a link definition of which the label and the colon have been read.
What stands on a line below and is no title is no part of it. -/
def definitionEnd? (s : OpenBlocks) (cs : List Char) : Option (List Char) :=
  match s.definitionSpace? cs with
  | none => none
  | some (_, target) =>
    match destination? 1 target with
    | none => none
    | some rest =>
      if rest.length == target.length then none
      else
        match s.definitionSpace? rest with
        | none => some rest
        | some (onNextLine, after) =>
          if after.length == rest.length then none
          else
            match definitionTitle? after with
            | some afterTitle =>
              if isBlankLine afterTitle then some afterTitle
              else if onNextLine then some rest else none
            | none => if onNextLine then some rest else none

def definition? (s : OpenBlocks) (cs : List Char) : Option (List Char × List Char) :=
  let nextLine (cs : List Char) : Option (List Char) :=
    (s.followAll? cs).bind fun c => if s.cutsParagraph true c.rest then none else some c.rest
  match label? nextLine cs with
  | some (label, ':' :: rest) => (s.definitionEnd? rest).map (label, ·)
  | _ => none

/-- Link definitions, and the paragraph after them if there is one. -/
def readText : Nat → OpenBlocks → List Char → OpenBlocks × List Char
  | 0, s, cs => s.finishList.readParagraph cs
  | fuel + 1, s, cs =>
    match s.definition? cs with
    | none => s.finishList.readParagraph cs
    | some (label, rest) =>
      let s := { s with labels := label :: s.labels }
      let below := (blankLine? rest).getD rest
      let (n, c) := s.follow below
      let (indent, inner) := c.takeSpaces 4
      if indent < 4 && s.cutsParagraph (n == s.containers.length) inner.rest then
        (s.finishList, below)
      else readText fuel s (skipGap inner.rest)

def readBlock (s : OpenBlocks) (c : Cursor) : OpenBlocks × List Char :=
  match blankLine? c.rest with
  | some below => (s.readBlank, below)
  | none =>
    let (indent, inner) := c.takeSpaces 4
    let cs := inner.rest
    if indent = 4 then s.finishList.readIndentedCode inner
    else
      let afterAngle := if cs.head? == some '<' then some (cs.drop 1) else none
      match afterAngle.bind blockEndMark? with
      | some mark => s.finishList.readHtml (some mark) indent cs
      | none =>
        if (afterAngle.map fun cs => beginsElementBlock cs || isLoneTag cs).getD false then
          s.finishList.readHtml none indent cs
        else
          match rule? cs, headingMark? cs, fence? cs with
          | some below, _, _ => (s.finishList.add .rule, below)
          | none, some (level, rest), _ => s.finishList.readHeading level rest
          | none, none, some (fence, rest) => s.finishList.readFencedCode fence indent rest
          | none, none, none => readText (cs.length + 1) s cs

def readLine (s : OpenBlocks) (cs : List Char) : OpenBlocks × List Char :=
  let (n, c) := s.follow cs
  match openContainers (cs.length + 1) (s.closeTo n) c with
  | (s, .ended below) => (s, below)
  | (s, .content c) => s.readBlock c

def readLines : Nat → OpenBlocks → List Char → OpenBlocks
  | 0, s, _ => s
  | _, s, [] => s
  | fuel + 1, s, cs => readLines fuel (s.readLine cs).1 (s.readLine cs).2

end OpenBlocks

/-- All blocks of a text, and the labels of its link definitions. Every step reads at
least one character. -/
def blocks (text : String) : List Block × List (List Char) :=
  let s := OpenBlocks.readLines text.length .empty text.toList
  let s := (s.closeTo 0).closeList
  (s.blocks.reverse, s.labels)

end DotDiagram.Markdown
