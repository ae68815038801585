import DotDiagram.Markdown.InlineReader

/-! Markdown as a tree of blocks, and its events in reading order. -/

namespace DotDiagram.Markdown

mutual

inductive Block where
  | paragraph (content : Source)
  | heading (level : HeadingLevel) (content : Source)
  | code (text : String)
  | html (text : String)
  | rule
  | quote (blocks : List Block)
  | list (start : Option Nat) (tight : Bool) (items : List Item)
  | table (alignments : List Alignment) (head : List Source) (rows : List (List Source))

inductive Item where
  | mk (task : Option Bool) (blocks : List Block)

end

def cellEvents (known : List (List Char)) (cell : Source) : List Event :=
  .start .tableCell :: (inlineEvents (cell.inlines known) ++ [.stop])

def rowEvents (known : List (List Char)) (tag : Tag) (row : List Source) : List Event :=
  .start tag :: (row.flatMap (cellEvents known) ++ [.stop])

mutual

/-- Within a tight list, the paragraphs of an item are not marked as such. -/
def Block.events (known : List (List Char)) (tight : Bool) : Block → List Event
  | .paragraph content =>
    if tight then inlineEvents (content.inlines known)
    else .start .paragraph :: (inlineEvents (content.inlines known) ++ [.stop])
  | .heading level content =>
    .start (.heading level) :: (inlineEvents (content.inlines known) ++ [.stop])
  | .code text => [.start .codeBlock, .text text, .stop]
  | .html text => [.start .htmlBlock, .html text, .stop]
  | .rule => [.rule]
  | .quote blocks => .start .quote :: (blockEvents known false blocks ++ [.stop])
  | .list start tight items => .start (.list start) :: (itemEvents known tight items ++ [.stop])
  | .table alignments head rows =>
    .start (.table alignments) ::
      (rowEvents known .tableHead head ++ rows.flatMap (rowEvents known .tableRow) ++ [.stop])

def blockEvents (known : List (List Char)) (tight : Bool) : List Block → List Event
  | [] => []
  | b :: bs => b.events known tight ++ blockEvents known tight bs

def Item.events (known : List (List Char)) (tight : Bool) : Item → List Event
  | .mk task blocks =>
    .start .item ::
      ((task.map Event.taskMarker).toList ++ blockEvents known tight blocks ++ [.stop])

def itemEvents (known : List (List Char)) (tight : Bool) : List Item → List Event
  | [] => []
  | x :: xs => x.events known tight ++ itemEvents known tight xs

end

end DotDiagram.Markdown
