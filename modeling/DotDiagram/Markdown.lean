import DotDiagram.AttrValue
import DotDiagram.Markdown.BlockReader
import DotDiagram.Markdown.Label

/-! Labels written in Markdown. The reader of texts is the library's own; labels are written
from the events of any. -/

namespace DotDiagram.Markdown

/-- What a text says, in reading order. -/
def events (text : String) : List Event :=
  let (blocks, known) := blocks text
  blockEvents known false blocks

/-- The label that a text in Markdown stands for. -/
def label (text : String) : AttrValue := .markup (labelOfEvents (events text))

end DotDiagram.Markdown
