import DotDiagram.Proofs.Markdown.Node

/-! What the end of a block hands over, as a tree. The buffer of the block was written
from one, and so is what it is wrapped in. -/

namespace DotDiagram

namespace Markdown

def leftRowNodes (content : List Node) : List Node := wrap [rowTag, Alignment.left.tag] content

def nestedRowNodes (content : List Node) : List Node := wrap [rowTag, Alignment.none.tag] content

def quoteNodes (rows : List Node) : List Node :=
  wrap [quoteTag, rowTag] (wrap [marginTag] [] ++ wrap [Alignment.left.tag, quoteTag] rows)

/-- An empty line of code shows as a space. -/
def codeRowNodes (line : List Char) : List Node :=
  leftRowNodes (wrap [monospaceTag] (if line.all isBlank then [.own ' '] else saidNodes line))

def codeNodes (code : List Char) : List Node := (splitLines (trimRight code)).flatMap codeRowNodes

def codeSpanNodes (code : List Char) : List Node :=
  if code.all isBlank then saidNodes code else wrap [monospaceTag] (saidNodes code)

def cellNodes (table : TableState) (content : List Node) : List Node :=
  wrap [(table.alignments[table.column]?.getD .none).tag]
    (wrap (if table.inHead then [boldTag] else []) content)

def markerNodes (marker : String) : List Node :=
  if marker = bullet then [.bullet, .own ' '] else ownNodes marker.toList

/-- What a block hands over when it ends. -/
def Frame.nodes (inItem : Bool) (table : TableState) (content : List Node) : Frame → List Node
  | .paragraph =>
    let shown := trimEnd content
    if inItem || shown.isEmpty then shown else leftRowNodes shown
  | .heading level => leftRowNodes (wrap [level.tag, boldTag] content)
  | .emphasis => wrap [italicTag] content
  | .strong => wrap [boldTag] content
  | .strikethrough => wrap [struckTag] content
  | .link | .htmlBlock => content
  | .image =>
    if content.isEmpty then ownNodes "[image]".toList
    else ownNodes ['['] ++ content ++ ownNodes [']']
  | .list _ => if inItem then wrap [listTag] content else nestedRowNodes (wrap [listTag] content)
  | .item marker => leftRowNodes (markerNodes marker ++ content)
  | .codeBlock => nestedRowNodes (wrap [codeTag] (codeNodes (said content)))
  | .quote => nestedRowNodes (quoteNodes content)
  | .table => nestedRowNodes (wrap [gridTag] content)
  | .tableHead | .tableRow => wrap [rowTag] content
  | .tableCell => cellNodes table content

/-- What an event adds by itself. -/
def Event.nodes : Event → List Node
  | .start _ | .stop | .other => []
  | .text s | .html s => saidNodes s.toList
  | .code s => codeSpanNodes s.toList
  | .softBreak => ownNodes [' ']
  | .hardBreak => [.lineBreak]
  | .rule => leftRowNodes (ownNodes ruleLine.toList)
  | .taskMarker checked => ownNodes (if checked then "[x] " else "[ ] ").toList

/-- Where the writer stands in its table after a block. -/
def Frame.leave (table : TableState) : Frame → TableState
  | .tableHead => { table with inHead := false }
  | .tableCell => { table with column := table.column + 1 }
  | _ => table

/-! ### The markup of these trees -/

section

variable (nodes : List Node)

theorem text_leftRowNodes : text (leftRowNodes nodes) = leftRow (text nodes) :=
  text_wrap_eq rfl rfl nodes

theorem text_nestedRowNodes : text (nestedRowNodes nodes) = nestedRow (text nodes) :=
  text_wrap_eq rfl rfl nodes

theorem text_listTable : text (wrap [listTag] nodes) = listTable (text nodes) :=
  text_wrap_eq rfl rfl nodes

theorem text_codeTable : text (wrap [codeTag] nodes) = codeTable (text nodes) :=
  text_wrap_eq rfl rfl nodes

theorem text_gridTable : text (wrap [gridTag] nodes) = gridTable (text nodes) :=
  text_wrap_eq rfl rfl nodes

theorem text_monospaced : text (wrap [monospaceTag] nodes) = monospaced (text nodes) :=
  text_wrap_eq rfl rfl nodes

theorem text_enlarged (level : HeadingLevel) :
    text (wrap [level.tag, boldTag] nodes) = enlarged level.pointSize (text nodes) := by
  cases level <;> exact text_wrap_eq rfl rfl nodes

theorem text_quoteNodes : text (quoteNodes nodes) = quoteTable (text nodes) := by
  have hframe {before after : String}
      (hb : .ofList (openings [quoteTag, rowTag]) ++ text (wrap [marginTag] []) ++
        .ofList (openings [Alignment.left.tag, quoteTag]) = before)
      (ha : .ofList (closings [Alignment.left.tag, quoteTag]) ++
        .ofList (closings [quoteTag, rowTag]) = after) :
      text (quoteNodes nodes) = before ++ text nodes ++ after := by
    rw [← hb, ← ha, quoteNodes, text_wrap, text_append, text_wrap _ nodes]
    simp only [String.append_assoc]
  exact hframe rfl rfl

theorem text_bold : text (wrap [boldTag] nodes) = "<B>" ++ text nodes ++ "</B>" :=
  text_wrap_eq rfl rfl nodes

theorem text_cellNodes (table : TableState) :
    text (cellNodes table nodes) = LabelWriter.cell table (text nodes) := by
  have htag (align : Alignment) (content : List Node) :
      text (wrap [align.tag] content) = align.cellTag ++ text content ++ "</TD>" := by
    cases align <;> exact text_wrap_eq rfl rfl content
  have hclose : "</B></TD>" = "</B>" ++ "</TD>" := rfl
  unfold cellNodes LabelWriter.cell
  rw [htag]
  dsimp only
  split
  · rw [text_bold, hclose]
    simp only [String.append_assoc]
  · rfl

theorem text_bracketed :
    text (ownNodes ['['] ++ nodes ++ ownNodes [']']) = "[" ++ text nodes ++ "]" := by
  rw [text_append, text_append]
  rfl

theorem text_row : text (wrap [rowTag] nodes) = "<TR>" ++ text nodes ++ "</TR>" :=
  text_wrap_eq rfl rfl nodes

theorem text_isEmpty : (text nodes).isEmpty = nodes.isEmpty := by
  cases nodes with
  | nil => rfl
  | cons node nodes =>
    have hne : (text (node :: nodes)).toList ≠ [] := by
      rw [toList_text_eq_flatMap, List.flatMap_cons]
      exact List.append_ne_nil_of_left_ne_nil node.chars_ne_nil _
    simpa using hne

theorem trimRightText_text : trimRightText (text nodes) = text (trimEnd nodes) := by
  apply String.toList_injective
  rw [trimRightText, String.toList_ofList, toList_text_eq_flatMap, toList_text_eq_flatMap]
  exact node_writesBlanks.trimRight_flatMap nodes

end

theorem trimText_text (nodes : List Node) : trimText (text nodes) = text (trimEnds nodes) := by
  apply String.toList_injective
  rw [trimText, String.toList_ofList, toList_text_eq_flatMap, toList_text_eq_flatMap]
  exact node_writesBlanks.trim_flatMap nodes

theorem text_markerNodes (marker : String) : text (markerNodes marker) = marker := by
  unfold markerNodes
  split
  · next h =>
    rw [h]
    rfl
  · exact text_ownNodes marker

theorem said_codeSpanNodes (code : List Char) : said (codeSpanNodes code) = code := by
  unfold codeSpanNodes
  split
  · exact said_saidNodes code
  · rw [said_wrap, said_saidNodes]

theorem said_markerNodes (marker : String) : said (markerNodes marker) = [] := by
  unfold markerNodes
  split
  · rfl
  · exact said_ownNodes _

theorem splitLines_ne_nil (cs : List Char) : splitLines cs ≠ [] := by
  cases cs with
  | nil => nofun
  | cons c cs =>
    rw [splitLines]
    split
    · nofun
    · split <;> nofun

theorem splitLines_cons (c : Char) (cs : List Char) :
    splitLines (c :: cs) =
      if c = '\n' then [] :: splitLines cs else (splitLines cs).modifyHead (c :: ·) := by
  rw [splitLines]
  split
  · next h => exact absurd h (splitLines_ne_nil cs)
  · next line lines h => rw [h, List.modifyHead_cons]

theorem splitLines_append {front : List Char} (h : '\n' ∉ front) (rest : List Char) :
    splitLines (front ++ rest) = (splitLines rest).modifyHead (front ++ ·) := by
  induction front with
  | nil => exact (List.modifyHead_id ▸ rfl)
  | cons c cs ih =>
    have hc : c ≠ '\n' := fun heq => h (heq ▸ List.mem_cons_self)
    rw [List.cons_append, splitLines_cons, if_neg hc, ih fun hm => h (List.mem_cons_of_mem c hm),
      List.modifyHead_modifyHead]
    rfl

/-- Lines of escaped code are escaped lines of code. -/
theorem splitLines_escape (code : List Char) :
    splitLines (code.flatMap escapeMarkupChar) =
      (splitLines code).map (·.flatMap escapeMarkupChar) := by
  induction code with
  | nil => rfl
  | cons c cs ih =>
    rw [List.flatMap_cons, splitLines_cons]
    by_cases hc : c = '\n'
    · have hesc : escapeMarkupChar '\n' = ['\n'] := rfl
      rw [hc, hesc, List.singleton_append, splitLines_cons, if_pos rfl, if_pos rfl, ih,
        List.map_cons]
      rfl
    · have hfree : '\n' ∉ escapeMarkupChar c := by
        have hentities : ∀ entry ∈ Markup.entities, '\n' ∉ '&' :: entry.1.toList := by decide
        rcases Markup.escapeMarkupChar_cases c with ⟨name, hname, hesc⟩ | ⟨-, -, -, hesc⟩
        · rw [hesc]
          exact hentities _ hname
        · rw [hesc, List.mem_singleton]
          exact fun heq => hc heq.symm
      rw [splitLines_append hfree, if_neg hc, ih]
      obtain ⟨line, lines, hlines⟩ := List.exists_cons_of_ne_nil (splitLines_ne_nil cs)
      rw [hlines, List.map_cons, List.modifyHead_cons, List.modifyHead_cons, List.map_cons,
        List.flatMap_cons]

theorem all_isBlank_escape (cs : List Char) :
    (cs.flatMap escapeMarkupChar).all isBlank = cs.all isBlank := by
  rw [List.all_flatMap]
  exact congrArg cs.all (funext escape_writesBlanks.all_write)

theorem text_codeRowNodes (line : List Char) :
    text (codeRowNodes line) = codeRow (line.flatMap escapeMarkupChar) := by
  rw [codeRowNodes, codeRow, text_leftRowNodes, text_monospaced, all_isBlank_escape,
    apply_ite text, text_saidNodes]
  rfl

theorem text_codeNodes (code : List Char) :
    text (codeNodes code) = codeRows (text (saidNodes code)) := by
  have hlines : splitLines (trimRight (code.flatMap escapeMarkupChar)) =
      (splitLines (trimRight code)).map (·.flatMap escapeMarkupChar) := by
    rw [escape_writesBlanks.trimRight_flatMap]
    exact splitLines_escape _
  rw [codeRows, text_saidNodes, String.toList_ofList, hlines, List.map_map, codeNodes,
    text_flatMap]
  exact congrArg String.join (List.map_congr_left fun line _ => text_codeRowNodes line)

theorem text_codeSpanNodes (code : String) : text (codeSpanNodes code.toList) = codeSpan code := by
  rw [codeSpanNodes, codeSpan, apply_ite text, text_monospaced, text_saidNodes]
  rfl

namespace LabelWriter

/-- A block that ends changes nothing but the table and the buffer around it. -/
theorem close_eq_push (w : LabelWriter) (frame : Frame) (content : String) :
    ∃ table s, w.close frame content = { w with table := table }.push s := by
  cases frame <;> exact ⟨_, _, rfl⟩

/-- What is written from a tree is handed over as what is written from another. -/
theorem close_text (w : LabelWriter) {frame : Frame} {nodes : List Node}
    (hcode : frame = .codeBlock → nodes = saidNodes (said nodes)) :
    w.close frame (text nodes) =
      { w with table := frame.leave w.table }.push
        (text (frame.nodes w.inItem w.table nodes)) := by
  cases frame with
  | paragraph =>
    simp only [close, Frame.nodes, Frame.leave, trimRightText_text, text_isEmpty, apply_ite text,
      text_leftRowNodes]
  | heading level => simp only [close, Frame.nodes, Frame.leave, text_leftRowNodes, text_enlarged]
  | emphasis =>
    have htag : text (wrap [italicTag] nodes) = "<I>" ++ text nodes ++ "</I>" :=
      text_wrap_eq rfl rfl nodes
    simp only [close, Frame.nodes, Frame.leave, htag]
  | strong => simp only [close, Frame.nodes, Frame.leave, text_bold]
  | strikethrough =>
    have htag : text (wrap [struckTag] nodes) = "<S>" ++ text nodes ++ "</S>" :=
      text_wrap_eq rfl rfl nodes
    simp only [close, Frame.nodes, Frame.leave, htag]
  | link | htmlBlock => rfl
  | image =>
    have hempty : text (ownNodes "[image]".toList) = "[image]" := rfl
    simp only [close, Frame.nodes, Frame.leave, text_isEmpty, apply_ite text, text_bracketed,
      hempty]
  | list =>
    simp only [close, Frame.nodes, Frame.leave, apply_ite text, text_nestedRowNodes,
      text_listTable]
  | item marker =>
    simp only [close, Frame.nodes, Frame.leave, text_leftRowNodes, text_append, text_markerNodes]
  | codeBlock =>
    -- The lines are told apart in the buffer, which would cut tags in two if it had any.
    have hcontent : text nodes = text (saidNodes (said nodes)) := congrArg text (hcode rfl)
    simp only [close, Frame.nodes, Frame.leave, text_nestedRowNodes, text_codeTable,
      text_codeNodes, ← hcontent]
  | quote => simp only [close, Frame.nodes, Frame.leave, text_nestedRowNodes, text_quoteNodes]
  | table => simp only [close, Frame.nodes, Frame.leave, text_nestedRowNodes, text_gridTable]
  | tableHead | tableRow => simp only [close, Frame.nodes, Frame.leave, text_row]
  | tableCell => simp only [close, Frame.nodes, Frame.leave, text_cellNodes]

/-- Any tag but an item's opens a frame and at most starts a table, a head or a row anew. -/
theorem start_cases (w : LabelWriter) (tag : Tag) :
    tag = .item ∨ ∃ frame table, (∀ marker, frame ≠ .item marker) ∧
      w.start tag = { w with table := table }.openFrame frame := by
  cases tag with
  | item => exact .inl rfl
  | _ =>
    refine .inr ⟨_, _, ?_, rfl⟩
    nofun

theorem push_empty (w : LabelWriter) : w.push "" = w := by
  obtain ⟨written, frames, table⟩ := w
  cases frames <;> simp [push]

/-- An event starts a block, ends one or adds to one. -/
theorem event_cases (w : LabelWriter) (e : Event) :
    (∃ tag, e = .start tag) ∨ e = .stop ∨ w.event e = w.push (text e.nodes) := by
  cases e with
  | start tag => exact .inl ⟨tag, rfl⟩
  | stop => exact .inr (.inl rfl)
  | text s | html s =>
    refine .inr (.inr ?_)
    rw [Event.nodes, text_saidNodes, event, escapeMarkup]
  | code s =>
    refine .inr (.inr ?_)
    rw [Event.nodes, text_codeSpanNodes, event]
  | softBreak | hardBreak => exact .inr (.inr rfl)
  | other => exact .inr (.inr w.push_empty.symm)
  | rule =>
    refine .inr (.inr ?_)
    rw [Event.nodes, text_leftRowNodes, text_ownNodes, event]
  | taskMarker checked =>
    refine .inr (.inr ?_)
    rw [Event.nodes, text_ownNodes, event]

end LabelWriter

theorem labelOfEvents_eq {events : List Event} {nodes : List Node}
    (h : body events = text nodes) :
    labelOfEvents events =
      if (trimEnds nodes).isEmpty then "" else text (wrap [labelTag] (trimEnds nodes)) := by
  have hlabel : text (wrap [labelTag] (trimEnds nodes)) =
      "<TABLE BORDER=\"0\" CELLBORDER=\"0\" CELLSPACING=\"0\">" ++ text (trimEnds nodes) ++
        "</TABLE>" := text_wrap_eq rfl rfl _
  simp only [labelOfEvents, h, trimText_text, text_isEmpty, hlabel]

/-! ### What a block keeps -/

/-- The marker of an item is made of the writer's own signs. -/
def Frame.Marked (frame : Frame) : Prop :=
  ∀ marker, frame = .item marker → Proper (markerNodes marker)

theorem proper_leftRowNodes {nodes : List Node} : Proper (leftRowNodes nodes) ↔ Proper nodes :=
  proper_wrap (by decide)

theorem proper_nestedRowNodes {nodes : List Node} : Proper (nestedRowNodes nodes) ↔ Proper nodes :=
  proper_wrap (by decide)

theorem proper_codeNodes (code : List Char) : Proper (codeNodes code) := by
  apply proper_flatMap
  intro line _
  apply proper_leftRowNodes.mpr
  apply (proper_wrap (by decide)).mpr
  split
  · exact @proper_ownNodes [' '] (by decide)
  · exact proper_saidNodes line

theorem proper_codeSpanNodes (code : List Char) : Proper (codeSpanNodes code) := by
  unfold codeSpanNodes
  split
  · exact proper_saidNodes code
  · exact (proper_wrap (by decide)).mpr (proper_saidNodes code)

theorem proper_cellNodes {nodes : List Node} (h : Proper nodes) (table : TableState) :
    Proper (cellNodes table nodes) := by
  have halign : ∀ align : Alignment, ∀ tag ∈ [align.tag], tag ∈ writerTags := by
    intro align
    cases align <;> decide
  have hbold : ∀ tag ∈ (if table.inHead then [boldTag] else []), tag ∈ writerTags := by
    cases table.inHead <;> decide
  exact (proper_wrap (halign _)).mpr ((proper_wrap hbold).mpr h)

theorem Frame.proper_nodes {frame : Frame} (hm : frame.Marked) {nodes : List Node}
    (h : Proper nodes) (inItem : Bool) (table : TableState) :
    Proper (frame.nodes inItem table nodes) := by
  cases frame with
  | paragraph =>
    simp only [Frame.nodes]
    split
    · exact h.trimEnd
    · exact proper_leftRowNodes.mpr h.trimEnd
  | heading level =>
    have htags : ∀ tag ∈ [level.tag, boldTag], tag ∈ writerTags := by cases level <;> decide
    exact proper_leftRowNodes.mpr ((proper_wrap htags).mpr h)
  | emphasis | strong | strikethrough | tableHead | tableRow =>
    exact (proper_wrap (by decide)).mpr h
  | link | htmlBlock => exact h
  | image =>
    simp only [Frame.nodes]
    split
    · exact @proper_ownNodes "[image]".toList (by decide)
    · have hbefore : Proper (ownNodes ['[']) := proper_ownNodes (by decide)
      have hafter : Proper (ownNodes [']']) := proper_ownNodes (by decide)
      exact proper_append.mpr ⟨proper_append.mpr ⟨hbefore, h⟩, hafter⟩
  | list =>
    have hrows : Proper (wrap [listTag] nodes) := (proper_wrap (by decide)).mpr h
    simp only [Frame.nodes]
    split
    · exact hrows
    · exact proper_nestedRowNodes.mpr hrows
  | item marker => exact proper_leftRowNodes.mpr (proper_append.mpr ⟨hm marker rfl, h⟩)
  | codeBlock =>
    exact proper_nestedRowNodes.mpr ((proper_wrap (by decide)).mpr (proper_codeNodes _))
  | quote =>
    have hmargin : Proper (wrap [marginTag] []) := (proper_wrap (by decide)).mpr nofun
    have hrows : Proper (wrap [Alignment.left.tag, quoteTag] nodes) :=
      (proper_wrap (by decide)).mpr h
    exact proper_nestedRowNodes.mpr
      ((proper_wrap (by decide)).mpr (proper_append.mpr ⟨hmargin, hrows⟩))
  | table => exact proper_nestedRowNodes.mpr ((proper_wrap (by decide)).mpr h)
  | tableCell => exact proper_cellNodes h table

theorem lessBlanks_splitLines (code : List Char) : LessBlanks (splitLines code).flatten code := by
  induction code with
  | nil => exact .refl []
  | cons c cs ih =>
    obtain ⟨line, lines, hlines⟩ := List.exists_cons_of_ne_nil (splitLines_ne_nil cs)
    rw [splitLines_cons]
    rw [hlines] at ih ⊢
    split
    · next hc =>
      have hbreak : LessBlanks [] [c] := .of_blank (by simp [hc, isBlank])
      exact hbreak.append ih
    · exact (LessBlanks.refl [c]).append ih

theorem lessBlanks_codeNodes (code : List Char) : LessBlanks (said (codeNodes code)) code := by
  have hline (line : List Char) : LessBlanks (said (codeRowNodes line)) line := by
    rw [codeRowNodes, leftRowNodes, said_wrap, said_wrap]
    split
    · next hblank => exact .of_blank (List.all_eq_true.mp hblank)
    · rw [said_saidNodes]
      exact .refl line
  have hlines : LessBlanks (said (codeNodes code)) (splitLines (trimRight code)).flatten := by
    rw [codeNodes, said_flatMap]
    have hall := LessBlanks.flatMap fun line (_ : line ∈ splitLines (trimRight code)) => hline line
    simpa using hall
  exact (hlines.trans (lessBlanks_splitLines _)).trans (.trimRight code)

/-- A block loses no more than white space. -/
theorem Frame.lessBlanks_nodes (frame : Frame) (inItem : Bool) (table : TableState)
    (nodes : List Node) : LessBlanks (said (frame.nodes inItem table nodes)) (said nodes) := by
  cases frame with
  | paragraph =>
    simp only [Frame.nodes]
    split
    · exact lessBlanks_trimEnd nodes
    · rw [leftRowNodes, said_wrap]
      exact lessBlanks_trimEnd nodes
  | codeBlock =>
    rw [Frame.nodes, nestedRowNodes, said_wrap, said_wrap]
    exact lessBlanks_codeNodes _
  | image =>
    simp only [Frame.nodes]
    split
    · next hempty =>
      rw [said_ownNodes, List.isEmpty_iff.mp hempty]
      exact .refl []
    · rw [said_append, said_append, said_ownNodes, said_ownNodes, List.nil_append, List.append_nil]
      exact .refl _
  | item marker =>
    rw [Frame.nodes, leftRowNodes, said_wrap, said_append, said_markerNodes, List.nil_append]
    exact .refl _
  | quote =>
    rw [Frame.nodes, nestedRowNodes, quoteNodes, said_wrap, said_wrap, said_append, said_wrap,
      said_wrap]
    exact .refl _
  | list =>
    simp only [Frame.nodes]
    split <;> simp only [nestedRowNodes, said_wrap] <;> exact .refl _
  | tableCell =>
    rw [Frame.nodes, cellNodes, said_wrap, said_wrap]
    exact .refl _
  | heading | emphasis | strong | strikethrough | table | tableHead | tableRow =>
    simp only [Frame.nodes, leftRowNodes, nestedRowNodes, said_wrap]
    exact .refl _
  | link | htmlBlock => exact .refl _

end Markdown

end DotDiagram
