import DotDiagram.Proofs.Markdown.Close
import DotDiagram.Proofs.Markdown.Reading

/-! Where markup may stand. A table has rows, a row has cells, and neither stands anywhere
else. Each kind of block is written for one such place: it fits there or it does not,
whatever its content. -/

namespace DotDiagram

namespace Markup

/-- Directly in a table, directly in one of its rows, or in text. -/
inductive Place where
  | table | row | text
  deriving DecidableEq

/-- What an element makes of the place where it stands, if it may stand there. -/
def Place.within : Place → String → Option Place
  | .table, name => if name = "TR" then some .row else none
  | .row, name => if name = "TD" then some .text else none
  | .text, name =>
    if name = "TABLE" then some .table
    else if name = "TR" ∨ name = "TD" then none
    else some .text

mutual

def Item.fits (place : Place) : Item → Bool
  | .char c => place = .text || isBlank c
  | .void tag => (place.within tag.name).isSome
  | .element tag content =>
    match place.within tag.name with
    | some inner => fits inner content
    | none => false

/-- At any depth, tables have only rows in them and rows only cells, apart from white space,
and there are no others. -/
def fits (place : Place) : List Item → Bool
  | [] => true
  | item :: items => item.fits place && fits place items

end

theorem fits_eq_all (place : Place) (items : List Item) :
    fits place items = items.all (Item.fits place) := by
  induction items with
  | nil => rfl
  | cons item items ih => rw [fits, ih, List.all_cons]

end Markup

namespace Markdown

open Markup (Place fits fits_eq_all)

/-- Where the blocks of an item stand, and the other blocks. -/
def home (inItem : Bool) : Place := if inItem then .text else .table

theorem items_eq_map (nodes : List Node) : items nodes = nodes.map Node.item := by
  induction nodes with
  | nil => rfl
  | cons node nodes ih => rw [items, ih, List.map_cons]

section

variable (place : Place) (nodes nodes' : List Node)

theorem fits_append :
    fits place (items (nodes ++ nodes')) =
      (fits place (items nodes) && fits place (items nodes')) := by
  rw [items_append, fits_eq_all, List.all_append, ← fits_eq_all, ← fits_eq_all]

theorem fits_wrap_cons (tag : Markup.Tag) (tags : List Markup.Tag) :
    fits place (items (wrap (tag :: tags) nodes)) =
      match place.within tag.name with
      | some inner => fits inner (items (wrap tags nodes))
      | none => false := by
  have htags : wrap (tag :: tags) nodes = [.element tag (wrap tags nodes)] := rfl
  rw [htags, items, items, fits, fits, Node.item, Markup.Item.fits, Bool.and_true]

theorem fits_saidNodes (cs : List Char) :
    fits place (items (saidNodes cs)) = (place = .text || cs.all isBlank) := by
  rw [items_eq_map, fits_eq_all, saidNodes, List.map_map, List.all_map]
  cases place with
  | text => exact List.all_eq_true.mpr fun c _ => rfl
  | table | row => rfl

theorem fits_ownNodes (cs : List Char) : fits .text (items (ownNodes cs)) = true := by
  rw [items_eq_map, fits_eq_all, ownNodes, List.map_map, List.all_map]
  exact List.all_eq_true.mpr fun c _ => rfl

theorem fits_of_isBlank {node : Node} (h : node.isBlank = true) :
    node.item.fits place = true := by
  cases node with
  | said c | own c =>
    have hc : isBlank c = true := h
    rw [Node.item, Markup.Item.fits, hc, Bool.or_true]
  | bullet | lineBreak | element => cases h

theorem all_dropWhile {α : Type} {p q : α → Bool} (h : ∀ x, p x = true → q x = true)
    (xs : List α) : (xs.dropWhile p).all q = xs.all q := by
  induction xs with
  | nil => rfl
  | cons x xs ih =>
    cases hx : p x with
    | true => rw [List.dropWhile_cons_of_pos hx, ih, List.all_cons, h x hx, Bool.true_and]
    | false => rw [List.dropWhile_cons_of_neg (by simp [hx])]

theorem fits_trimEnd : fits place (items (trimEnd nodes)) = fits place (items nodes) := by
  have hdrop := all_dropWhile (q := fun node => node.item.fits place)
    (fun node h => fits_of_isBlank place h) nodes.reverse
  rw [List.all_reverse] at hdrop
  rw [items_eq_map, items_eq_map, fits_eq_all, fits_eq_all, List.all_map, List.all_map, trimEnd,
    List.rdropWhile, List.all_reverse]
  exact hdrop

theorem fits_trimEnds : fits place (items (trimEnds nodes)) = fits place (items nodes) := by
  have hdrop := all_dropWhile (q := fun node => node.item.fits place)
    (fun node h => fits_of_isBlank place h) nodes
  rw [trimEnds, fits_trimEnd, items_eq_map, items_eq_map, fits_eq_all, fits_eq_all, List.all_map,
    List.all_map]
  exact hdrop

theorem fits_leftRowNodes (inItem : Bool) :
    fits (home inItem) (items (leftRowNodes nodes)) =
      (!inItem && fits .text (items nodes)) := by
  rw [leftRowNodes, fits_wrap_cons]
  cases inItem with
  | true => rfl
  | false => exact fits_wrap_cons .row nodes Alignment.left.tag []

theorem fits_nestedRowNodes (inItem : Bool) :
    fits (home inItem) (items (nestedRowNodes nodes)) =
      (!inItem && fits .text (items nodes)) := by
  rw [nestedRowNodes, fits_wrap_cons]
  cases inItem with
  | true => rfl
  | false => exact fits_wrap_cons .row nodes Alignment.none.tag []

theorem fits_codeNodes (code : List Char) : fits .table (items (codeNodes code)) = true := by
  unfold codeNodes
  induction splitLines (trimRight code) with
  | nil => rfl
  | cons line lines ih =>
    have hline : fits .text (items (if line.all isBlank then [.own ' '] else saidNodes line)) =
        true := by
      split
      · rfl
      · rw [fits_saidNodes]
        rfl
    have hrow := fits_leftRowNodes (wrap [monospaceTag]
      (if line.all isBlank then [.own ' '] else saidNodes line)) false
    rw [List.flatMap_cons, fits_append, ih, Bool.and_true]
    refine hrow.trans ?_
    rw [fits_wrap_cons]
    exact hline

theorem fits_codeSpanNodes (code : List Char) :
    fits .text (items (codeSpanNodes code)) = true := by
  unfold codeSpanNodes
  split
  · exact fits_saidNodes .text code
  · rw [fits_wrap_cons]
    exact fits_saidNodes .text code

end

/-- Where the content of a block stands. -/
def Frame.inside (inItem : Bool) : Frame → Place
  | .list _ | .quote | .table => .table
  | .tableHead | .tableRow => .row
  | .htmlBlock => home inItem
  | _ => .text

/-- Where a block hands over what it is wrapped in. -/
def Frame.place (inItem : Bool) : Frame → Place
  | .paragraph | .heading _ | .list _ | .codeBlock | .quote | .table | .htmlBlock => home inItem
  | .item _ | .tableHead | .tableRow => .table
  | .tableCell => .row
  | .emphasis | .strong | .strikethrough | .link | .image => .text

/-- Some blocks become a row also in an item. -/
def Frame.isPlaced (inItem : Bool) : Frame → Bool
  | .heading _ | .codeBlock | .quote | .table => !inItem
  | _ => true

theorem fits_cellNodes (table : TableState) (nodes : List Node) :
    fits .row (items (cellNodes table nodes)) = fits .text (items nodes) := by
  have halign (align : Alignment) (content : List Node) :
      fits .row (items (wrap [align.tag] content)) = fits .text (items content) := by
    rw [fits_wrap_cons]
    cases align <;> rfl
  rw [cellNodes, halign]
  split
  · exact fits_wrap_cons .text nodes boldTag []
  · rfl

/-- A block fits where it stands if its kind may stand there and its content fits. -/
theorem Frame.fits_nodes (frame : Frame) (inItem : Bool) (table : TableState) {nodes : List Node}
    (hcode : frame = .codeBlock → nodes = saidNodes (said nodes)) :
    fits (frame.place inItem) (items (frame.nodes inItem table nodes)) =
      (frame.isPlaced inItem && fits (frame.inside inItem) (items nodes)) := by
  cases frame with
  | paragraph =>
    simp only [Frame.nodes]
    split
    · next h =>
      cases inItem with
      | true => exact fits_trimEnd .text nodes
      | false =>
        have hnil : trimEnd nodes = [] := List.isEmpty_iff.mp h
        have hblank := fits_trimEnd .text nodes
        rw [hnil] at hblank ⊢
        exact hblank
    · next h =>
      have hin : inItem = false := by simp_all
      rw [hin]
      exact (fits_leftRowNodes (trimEnd nodes) false).trans (fits_trimEnd .text nodes)
  | heading level =>
    have hsize : fits .text (items (wrap [level.tag, boldTag] nodes)) = fits .text (items nodes) :=
      (fits_wrap_cons .text nodes level.tag [boldTag]).trans (fits_wrap_cons .text nodes boldTag [])
    rw [Frame.nodes, Frame.place, fits_leftRowNodes, hsize]
    rfl
  | codeBlock =>
    have htable := fits_wrap_cons .text (codeNodes (said nodes)) codeTag []
    rw [hcode rfl, fits_saidNodes, ← hcode rfl, Frame.nodes, Frame.place, fits_nestedRowNodes,
      htable]
    exact congrArg (!inItem && ·) (fits_codeNodes (said nodes))
  | image =>
    simp only [Frame.nodes]
    split
    · next h =>
      rw [List.isEmpty_iff.mp h]
      exact fits_ownNodes _
    · rw [Frame.place, fits_append, fits_append, fits_ownNodes, fits_ownNodes, Bool.and_true]
      rfl
  | list =>
    have htable : fits .text (items (wrap [listTag] nodes)) = fits .table (items nodes) :=
      fits_wrap_cons .text nodes listTag []
    simp only [Frame.nodes]
    split
    · next h =>
      rw [h]
      exact htable
    · next h =>
      rw [Frame.place, fits_nestedRowNodes, htable, Bool.eq_false_iff.mpr h]
      rfl
  | item marker =>
    have hmarker : fits .text (items (markerNodes marker)) = true := by
      unfold markerNodes
      split
      · rfl
      · exact fits_ownNodes _
    have hrow := fits_leftRowNodes (markerNodes marker ++ nodes) false
    rw [fits_append, hmarker] at hrow
    exact hrow
  | quote =>
    have hcell : fits .row (items (wrap [Alignment.left.tag, quoteTag] nodes)) =
        fits .table (items nodes) :=
      (fits_wrap_cons .row nodes Alignment.left.tag [quoteTag]).trans
        (fits_wrap_cons .text nodes quoteTag [])
    have hframe : fits .text (items (quoteNodes nodes)) = fits .table (items nodes) := by
      rw [quoteNodes, fits_wrap_cons, ← hcell]
      refine (fits_wrap_cons .table _ rowTag []).trans ?_
      exact fits_append .row (wrap [marginTag] []) _
    rw [Frame.nodes, Frame.place, fits_nestedRowNodes, hframe]
    rfl
  | table =>
    have htable : fits .text (items (wrap [gridTag] nodes)) = fits .table (items nodes) :=
      fits_wrap_cons .text nodes gridTag []
    rw [Frame.nodes, Frame.place, fits_nestedRowNodes, htable]
    rfl
  | tableCell => exact fits_cellNodes table nodes
  | emphasis | strong | strikethrough => exact fits_wrap_cons .text nodes _ []
  | tableHead | tableRow => exact fits_wrap_cons .table nodes rowTag []
  | link | htmlBlock => rfl

end Markdown

end DotDiagram
