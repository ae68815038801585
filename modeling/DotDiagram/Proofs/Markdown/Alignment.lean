import DotDiagram.Markdown
import DotDiagram.Proofs.Markdown.EventForest

/-! The cells of tables. The writer knows the alignments of one table, the column it is in,
and whether it is in the head. If tables are not nested and cells stand only in heads and
rows, this is always about the table around. -/

namespace DotDiagram

namespace Markdown

/-- A cell in a column of the given alignment, if there is such a column. -/
def alignedCell (align : Option Alignment) (inHead : Bool) (text : String) : String :=
  (align.getD .none).cellTag ++ (if inHead then "<B>" ++ text ++ "</B>" else text) ++ "</TD>"

namespace LabelWriter

variable {w : LabelWriter} {f content : EventForest} {tag : Tag}

theorem cell_eq (table : TableState) (text : String) :
    cell table text = alignedCell table.alignments[table.column]? table.inHead text := by
  cases h : table.inHead <;> simp [cell, alignedCell, h, String.append_assoc]

theorem table_push (w : LabelWriter) (s : String) : (w.push s).table = w.table := by
  obtain ⟨written, frames, table⟩ := w
  cases frames <;> rfl

theorem table_close (w : LabelWriter) (frame : Frame) (s : String) :
    (w.close frame s).table = frame.leave w.table := by
  cases frame <;> simp only [close, table_push, Frame.leave]

theorem table_event {e : Event} (plain : e.isPlain = true) : (w.event e).table = w.table := by
  rw [event_eq_push plain, table_push]

/-- The end of a head ends the bold cells, and that of a cell goes on to the next column. -/
theorem table_stop (w : LabelWriter) (tag : Tag) (content : EventForest) :
    ((w.start tag).run content).stop.table =
      (tag.frame (takeMarker w.frames).1).leave ((w.start tag).run content).table := by
  have hleave (frame : Frame) (table : TableState) :
      (frame.renumber none).leave table = frame.leave table := by
    cases frame <;> rfl
  obtain ⟨frame, s, hframe, ⟨v, -, hlast⟩, -⟩ := w.opens_run tag content
  rw [← hleave (tag.frame _), ← hframe, hleave, hlast]
  exact v.table_close frame s

/-- Cells hold nothing that has to do with tables. -/
theorem table_run_inside (h : f.tablesPlaced .inside = true) : (w.run f).table = w.table := by
  induction f generalizing w with
  | nil => rfl
  | single e plain rest ih => rw [run_single, ih h, table_event plain]
  | block tag content rest ihc ihr =>
    simp only [EventForest.tablesPlaced, Bool.and_eq_true, Option.any_eq_true] at h
    obtain ⟨⟨place, hplace, hcontent⟩, hrest⟩ := h
    rw [run_block, ihr hrest, table_stop]
    cases tag with
    | table | tableHead | tableRow | tableCell => cases hplace
    | _ =>
      cases hplace
      exact ihc hcontent

theorem table_block_inside (hplace : TablePlace.within? .inside tag = some .inside)
    (h : content.tablesPlaced .inside = true) :
    ((w.start tag).run content).stop.table = w.table := by
  have hblock : (EventForest.block tag content .nil).tablesPlaced .inside = true := by
    simp [EventForest.tablesPlaced, hplace, h]
  have hrun := table_run_inside (w := w) hblock
  rwa [run_block, run_nil] at hrun

/-- Just the cells of a row count. -/
theorem table_run_row (h : f.tablesPlaced .row = true) :
    (w.run f).table = { w.table with column := w.table.column + f.count .tableCell } := by
  induction f generalizing w with
  | nil => rfl
  | single e plain rest ih =>
    rw [run_single, ih h, table_event plain]
    rfl
  | block tag content rest _ ih =>
    simp only [EventForest.tablesPlaced, Bool.and_eq_true, Option.any_eq_true] at h
    obtain ⟨⟨place, hplace, hcontent⟩, hrest⟩ := h
    rw [run_block, ih hrest, EventForest.count]
    cases tag with
    | table | tableHead | tableRow => cases hplace
    | tableCell =>
      cases hplace
      have hcell : ((w.start .tableCell).run content).stop.table =
          { w.table with column := w.table.column + 1 } := by
        rw [table_stop, table_run_inside hcontent]
        rfl
      rw [hcell, if_pos rfl, Nat.add_right_comm, Nat.add_assoc]
    | _ =>
      cases hplace
      rw [table_block_inside rfl hcontent]
      rfl

/-- Heads and rows leave the alignments alone, and heads are over when they end. -/
theorem table_run_table (h : f.tablesPlaced .table = true) (hw : w.table.inHead = false) :
    (w.run f).table.alignments = w.table.alignments ∧ (w.run f).table.inHead = false := by
  induction f generalizing w with
  | nil => exact ⟨rfl, hw⟩
  | single e plain rest ih =>
    have hevent : (w.event e).table = w.table := table_event plain
    rw [run_single, ← hevent]
    exact ih h (hevent ▸ hw)
  | block tag content rest _ ih =>
    simp only [EventForest.tablesPlaced, Bool.and_eq_true, Option.any_eq_true] at h
    obtain ⟨⟨place, hplace, hcontent⟩, hrest⟩ := h
    have hblock : ((w.start tag).run content).stop.table.alignments = w.table.alignments ∧
        ((w.start tag).run content).stop.table.inHead = false := by
      cases tag with
      | table | tableCell => cases hplace
      | tableHead | tableRow =>
        cases hplace
        rw [table_stop, table_run_row hcontent]
        first | exact ⟨rfl, rfl⟩ | exact ⟨rfl, hw⟩
      | _ =>
        cases hplace
        rw [table_block_inside rfl hcontent]
        exact ⟨rfl, hw⟩
    rw [run_block, ← hblock.1]
    exact ih hrest hblock.2

/-- A cell is handed over as its column and its row have it. -/
theorem opens_cell {alignments : List Alignment} {inHead : Bool} {column : Nat}
    {inner : EventForest} (hw : w.table = ⟨alignments, inHead, column⟩)
    (h : inner.tablesPlaced .inside = true) :
    ∃ text, Opens w ((w.start .tableCell).run inner) .tableCell text ∧
      Adds w ((w.start .tableCell).run inner).stop
        (alignedCell alignments[column]? inHead text) := by
  obtain ⟨frame, text, hframe, hopens, hadds⟩ := w.opens_run .tableCell inner
  obtain rfl : frame = .tableCell := by
    cases frame <;> cases hframe
    rfl
  have htable : ((w.start .tableCell).run inner).table = ⟨alignments, inHead, column⟩ :=
    (table_run_inside h).trans hw
  refine ⟨text, hopens, adds_stop hadds fun v _ hv => ⟨{ v.table with column := column + 1 }, ?_⟩⟩
  rw [htable] at hv
  simp only [Tag.frame, close, cell_eq, hv]

theorem adds_row (htag : tag = .tableHead ∨ tag = .tableRow) {s : String}
    (h : Adds (w.start tag) ((w.start tag).run content) s) :
    Adds w ((w.start tag).run content).stop ("<TR>" ++ s ++ "</TR>") := by
  rcases htag with rfl | rfl
  · exact adds_stop h fun v _ _ => ⟨{ v.table with inHead := false }, rfl⟩
  · exact adds_stop h fun v _ _ => ⟨v.table, rfl⟩

/-- The head is marked as such, and every row begins with the first column. -/
theorem table_start_row (htag : tag = .tableHead ∨ tag = .tableRow)
    (h : f.tablesPlaced .table = true) (alignments : List Alignment) :
    (((w.start (.table alignments)).run f).start tag).table =
      ⟨alignments, tag == .tableHead, 0⟩ := by
  obtain ⟨halign, hhead⟩ := table_run_table (w := w.start (.table alignments)) h rfl
  generalize (w.start (.table alignments)).run f = v at halign hhead
  rcases htag with rfl | rfl
  · exact congrArg (TableState.mk · true 0) halign
  · have hrow := congrArg (TableState.mk alignments · 0) hhead
    exact (congrArg (TableState.mk · v.table.inHead 0) halign).trans hrow

/-- `before` and `after` are the events around the table, `above` and `below` what stands in
it around the row, `left` and `right` what stands in the row around the cell. The cell has
`text` in it when it is about to stop, and so it stands in the row and this in the table. -/
theorem cells_aligned {stream above left inner right below : EventForest}
    {alignments : List Alignment} {before after : List Event}
    (placed : stream.tablesPlaced .outside = true) (htag : tag = .tableHead ∨ tag = .tableRow)
    (occurs : EventForest.Occurs (.table alignments)
      (above ++ .block tag (left ++ .block .tableCell inner right) below) stream before after) :
    let around := before.foldl event .empty
    let table := around.start (.table alignments)
    let row := (table.run above).start tag
    let align := alignments[left.count .tableCell]?
    stream.events = before ++ .start (.table alignments) :: (above.events ++ .start tag ::
        (left.events ++ .start .tableCell :: (inner.events ++ .stop :: (right.events ++ .stop ::
          (below.events ++ .stop :: after))))) ∧
      ∃ s s' text t' t, Adds table (table.run above) s ∧ Adds row (row.run left) s' ∧
        Opens (row.run left) (((row.run left).start .tableCell).run inner) .tableCell text ∧
        Adds around (table.run
            (above ++ .block tag (left ++ .block .tableCell inner right) below)).stop
          (nestedRow (gridTable (s ++ ("<TR>" ++
            (s' ++ alignedCell align (tag == .tableHead) text ++ t') ++ "</TR>") ++ t))) := by
  intro around table row align
  have hcontent := occurs.tablesPlaced placed
  rw [EventForest.tablesPlaced_append, Bool.and_eq_true] at hcontent
  obtain ⟨habove, hrow⟩ := hcontent
  simp only [EventForest.tablesPlaced, Bool.and_eq_true] at hrow
  have hcells : (left ++ EventForest.block .tableCell inner right).tablesPlaced .row = true := by
    rcases htag with rfl | rfl <;> exact hrow.1
  rw [EventForest.tablesPlaced_append, Bool.and_eq_true] at hcells
  obtain ⟨hleft, hcell⟩ := hcells
  simp only [EventForest.tablesPlaced, Bool.and_eq_true] at hcell
  have hstate : (row.run left).table =
      ⟨alignments, tag == .tableHead, left.count .tableCell⟩ := by
    rw [table_run_row hleft, table_start_row htag habove, Nat.zero_add]
  obtain ⟨text, hopens, hhanded⟩ := opens_cell hstate hcell.1
  obtain ⟨s', t', hs', hrowAdds⟩ := row.adds_between left right hhanded
  obtain ⟨s, t, hs, htable⟩ := table.adds_between above below (adds_row htag hrowAdds)
  refine ⟨?_, s, s', text, t', t, hs, hs', hopens,
    adds_stop htable fun v _ _ => ⟨v.table, rfl⟩⟩
  rw [occurs.events_eq, EventForest.events_append]
  simp [EventForest.events, EventForest.events_append]

def wordCell (s : String) (rest : EventForest) : EventForest :=
  .block .tableCell (.single (.text s) rfl .nil) rest

def headOfTwo : EventForest := .block .tableHead (wordCell "a" (wordCell "b" .nil)) .nil

/-- Below the head, a row whose second cell stands in a column aligned to the right. -/
def tableOfTwo : EventForest :=
  .block (.table [.left, .right])
    (headOfTwo ++ .block .tableRow (wordCell "c" .nil ++ wordCell "d" .nil) .nil) .nil

theorem tableOfTwo_aligned :
    tableOfTwo.events = Markdown.events "| a | b |\n|:--|--:|\n| c | d |" ∧
      tableOfTwo.tablesPlaced .outside = true ∧
      let content := headOfTwo ++ .block .tableRow (wordCell "c" .nil ++ wordCell "d" .nil) .nil
      EventForest.Occurs (.table [.left, .right]) content tableOfTwo [] [] ∧
        ∃ s s' text t' t, Adds empty ((empty.start (.table [.left, .right])).run content).stop
          (nestedRow (gridTable (s ++ ("<TR>" ++
            (s' ++ ("<TD ALIGN=\"RIGHT\">" ++ text ++ "</TD>") ++ t') ++ "</TR>") ++ t))) := by
  have placed : tableOfTwo.tablesPlaced .outside = true := rfl
  have occurs : EventForest.Occurs (.table [.left, .right]) (headOfTwo ++ .block .tableRow
      (wordCell "c" .nil ++ .block .tableCell (.single (.text "d") rfl .nil) .nil) .nil)
      tableOfTwo [] [] := .here .nil
  obtain ⟨-, s, s', text, t', t, -, -, -, hadds⟩ := cells_aligned placed (.inr rfl) occurs
  exact ⟨by decide +kernel, placed, occurs, s, s', text, t', t, hadds⟩

end LabelWriter

end Markdown

end DotDiagram
