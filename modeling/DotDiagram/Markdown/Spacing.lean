/-! The blank characters and line ends that Markdown's grammar speaks of. They are
all ASCII; other white space is text. -/

namespace DotDiagram.Markdown

/-- Blank characters within a line. -/
def isSpacing (c : Char) : Bool := c == ' ' || c == '\t' || c == '\x0b' || c == '\x0c'

def isLineEnd (c : Char) : Bool := c == '\n' || c == '\r'

def isSpacingOrLineEnd (c : Char) : Bool := isSpacing c || isLineEnd c

/-- The text after a line end. The end of the text is a line end, too. -/
def newline? : List Char → Option (List Char)
  | [] => some []
  | '\n' :: cs => some cs
  | '\r' :: '\n' :: cs => some cs
  | '\r' :: cs => some cs
  | _ => none

/-- The text after a line on which nothing but blanks is left. -/
def blankLine? (cs : List Char) : Option (List Char) := newline? (cs.dropWhile isSpacing)

def isBlankLine (cs : List Char) : Bool := (blankLine? cs).isSome

/-- How often a character stands at the front. -/
def runLength (c : Char) (cs : List Char) : Nat := (cs.takeWhile (· == c)).length

end DotDiagram.Markdown
