import DotDiagram.Markdown.Block
import DotDiagram.Markdown.LineMark

/-! The blocks of a text that is read in part. Quotes and list items are containers; the
open ones are known, each with what stands before it, and so is the list at the end of
the innermost one. -/

namespace DotDiagram.Markdown

/-- A list to which items may still be added. Its items stand last first. -/
structure OpenList where
  mark : Char
  start : Option Nat
  tight : Bool
  items : List Item

def OpenList.close (l : OpenList) : Block := .list l.start l.tight l.items.reverse

/-- An open container, with the blocks before it, last first. An item knows the list
that it will be added to, and the indentation of its lines. -/
inductive Container where
  | quote (before : List Block)
  | item (before : List Block) (list : OpenList) (indent : Nat) (task : Option Bool)

def Container.follow? : Container → Cursor → Option Cursor
  | .quote _, c =>
    let c := c.skipSpaces 3
    if c.rest.head? == some '>' then some ((c.skip 1).skipSpaces 1) else none
  | .item _ _ indent _, c =>
    let (n, c) := c.takeSpaces indent
    if n = indent || c.atLineEnd then some c else none

/-- How many of the containers, outermost first, a line goes on with. -/
def followed : List Container → Cursor → Nat × Cursor
  | [], c => (0, c)
  | container :: inner, c =>
    match container.follow? c with
    | none => (0, c)
    | some c => ((followed inner c).1 + 1, (followed inner c).2)

/-- The blocks read so far. The containers stand innermost first; the blocks are those of
the innermost one, last first, and after them there may be a list. -/
structure OpenBlocks where
  containers : List Container
  blocks : List Block
  list : Option OpenList
  afterBlank : Bool
  inEmptyItem : Bool
  labels : List (List Char)

namespace OpenBlocks

def empty : OpenBlocks := ⟨[], [], none, false, false, []⟩

def follow (s : OpenBlocks) (cs : List Char) : Nat × Cursor :=
  followed s.containers.reverse (.ofLine cs)

def followAll? (s : OpenBlocks) (cs : List Char) : Option Cursor :=
  let (n, c) := s.follow cs
  if n = s.containers.length then some c else none

def add (s : OpenBlocks) (b : Block) : OpenBlocks := { s with blocks := b :: s.blocks }

def closeList (s : OpenBlocks) : OpenBlocks :=
  match s.list with
  | none => s
  | some l => { s with blocks := l.close :: s.blocks, list := none }

def closeContainer (s : OpenBlocks) : OpenBlocks :=
  let s := s.closeList
  match s.containers with
  | [] => s
  | .quote before :: outer =>
    { s with containers := outer, blocks := .quote s.blocks.reverse :: before }
  | .item before list _ task :: outer =>
    { s with
      containers := outer
      blocks := before
      list := some { list with items := .mk task s.blocks.reverse :: list.items } }

def closeTo (n : Nat) (s : OpenBlocks) : OpenBlocks :=
  (s.containers.length - n).repeat closeContainer s

/-- An item begins with at most one blank line. -/
def finishEmptyItem (s : OpenBlocks) : OpenBlocks :=
  let s := match s.inEmptyItem && s.afterBlank, s.list, s.containers with
    | true, none, .item .. :: _ => s.closeContainer
    | _, _, _ => s
  { s with inEmptyItem := false }

/-- Blocks with a blank line between them make the list around them loose. -/
def loosen (s : OpenBlocks) : OpenBlocks :=
  match s.containers with
  | .item before list indent task :: outer =>
    { s with containers := .item before { list with tight := false } indent task :: outer }
  | _ => s

/-- Closes the innermost list before a block that does not belong to it. -/
def finishList (s : OpenBlocks) : OpenBlocks :=
  let s := s.finishEmptyItem.closeList
  if s.afterBlank then { s.loosen with afterBlank := false } else s

/-- The list that an item with this mark belongs to. -/
def itemList (s : OpenBlocks) (mark : ListMark) : OpenBlocks × OpenList :=
  let s := s.finishEmptyItem
  match s.list with
  | some l =>
    if l.mark == mark.mark then
      ({ s with list := none, afterBlank := false }, { l with tight := l.tight && !s.afterBlank })
    else (s.finishList, ⟨mark.mark, mark.number, true, []⟩)
  | none => (s.finishList, ⟨mark.mark, mark.number, true, []⟩)

def openItem (s : OpenBlocks) (mark : ListMark) (indent : Nat) (task : Option Bool) : OpenBlocks :=
  let (s, l) := s.itemList mark
  { s with containers := .item s.blocks l indent task :: s.containers, blocks := [] }

def openQuote (s : OpenBlocks) : OpenBlocks :=
  let s := s.finishList
  { s with containers := .quote s.blocks :: s.containers, blocks := [] }

end OpenBlocks

end DotDiagram.Markdown
