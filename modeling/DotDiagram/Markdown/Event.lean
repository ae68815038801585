/-! Markdown as a stream of events. A block or a span is opened by its tag and
closed by `stop`; a stream need not be well nested. -/

namespace DotDiagram.Markdown

inductive Alignment where
  | none | left | center | right
  deriving DecidableEq

inductive HeadingLevel where
  | h1 | h2 | h3 | h4 | h5 | h6
  deriving DecidableEq

def HeadingLevel.ofDepth? : Nat → Option HeadingLevel
  | 1 => some .h1
  | 2 => some .h2
  | 3 => some .h3
  | 4 => some .h4
  | 5 => some .h5
  | 6 => some .h6
  | _ => none

inductive Tag where
  | paragraph
  | heading (level : HeadingLevel)
  | emphasis
  | strong
  | strikethrough
  | link
  | image
  | list (start : Option Nat)
  | item
  | codeBlock
  | quote
  | table (alignments : List Alignment)
  | tableHead
  | tableRow
  | tableCell
  | htmlBlock
  /-- A block or a span of a kind that labels do not know. -/
  | other
  deriving DecidableEq

inductive Event where
  | start (tag : Tag)
  | stop
  | text (s : String)
  | code (s : String)
  | html (s : String)
  | softBreak
  | hardBreak
  | rule
  | taskMarker (checked : Bool)
  /-- A footnote, or mathematics. -/
  | other
  deriving DecidableEq

end DotDiagram.Markdown
