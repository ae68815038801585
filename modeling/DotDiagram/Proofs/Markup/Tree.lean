import DotDiagram.Proofs.Markup.Piece

/-! Markup as a tree. Each end tag has to close the element that was opened last, and in
the end none may be open. -/

namespace DotDiagram

namespace Markup

inductive Item where
  | char (c : Char)
  | void (tag : Tag)
  | element (tag : Tag) (content : List Item)

mutual

def Item.pieces : Item → List Piece
  | .char c => [.char c]
  | .void tag => [.void tag]
  | .element tag content => .opening tag :: (pieces content ++ [.closing tag.name])

def pieces : List Item → List Piece
  | [] => []
  | item :: items => item.pieces ++ pieces items

end

/-- The elements still open, innermost first, each with what stood before it; `done` is
what stands in the innermost so far, the last item first. -/
def nest? : List Piece → List (Tag × List Item) → List Item → Option (List Item)
  | [], [], done => some done.reverse
  | [], _ :: _, _ => none
  | .char c :: ps, stack, done => nest? ps stack (.char c :: done)
  | .void tag :: ps, stack, done => nest? ps stack (.void tag :: done)
  | .opening tag :: ps, stack, done => nest? ps ((tag, done) :: stack) []
  | .closing _ :: _, [], _ => none
  | .closing name :: ps, (tag, before) :: stack, done =>
    if name = tag.name then nest? ps stack (.element tag done.reverse :: before) else none

/-- Properly nested markup, as a tree. -/
def read? (text : String) : Option (List Item) :=
  (pieces? text.toList).bind fun ps => nest? ps [] []

def write (items : List Item) : String := .ofList ((pieces items).flatMap Piece.chars)

def Legible (items : List Item) : Prop := ∀ p ∈ pieces items, p.Legible

theorem pieces_append (items items' : List Item) :
    pieces (items ++ items') = pieces items ++ pieces items' := by
  induction items with
  | nil => rfl
  | cons item items ih => rw [List.cons_append, pieces, ih, pieces, List.append_assoc]

mutual

theorem nest?_item (item : Item) (ps : List Piece) (stack : List (Tag × List Item))
    (done : List Item) : nest? (item.pieces ++ ps) stack done = nest? ps stack (item :: done) := by
  cases item with
  | char c => rfl
  | void tag => rfl
  | element tag content =>
    have hcontent := nest?_pieces content (.closing tag.name :: ps) ((tag, done) :: stack) []
    rw [Item.pieces, List.cons_append, List.append_assoc, nest?, List.singleton_append, hcontent,
      nest?, if_pos rfl, List.append_nil, List.reverse_reverse]

theorem nest?_pieces (items : List Item) (ps : List Piece) (stack : List (Tag × List Item))
    (done : List Item) :
    nest? (pieces items ++ ps) stack done = nest? ps stack (items.reverse ++ done) := by
  cases items with
  | nil => rfl
  | cons item items =>
    rw [pieces, List.append_assoc, nest?_item item, nest?_pieces items, List.reverse_cons,
      List.append_assoc, List.singleton_append]

end

/-- What is written from a tree is read as that tree. -/
theorem read?_write {items : List Item} (h : Legible items) : read? (write items) = some items := by
  have hp : pieces? (write items).toList = some (pieces items) := by
    rw [write, String.toList_ofList]
    exact pieces?_flatMap h
  have hn := nest?_pieces items [] [] []
  rw [List.append_nil, List.append_nil] at hn
  rw [read?, hp, Option.bind_some, hn, nest?, List.reverse_reverse]

end Markup

end DotDiagram
