import DotDiagram.Proofs.Markdown.Close
import DotDiagram.Proofs.Markdown.Reading

/-! Labels are properly nested, whatever the events are that they are written from. At any
time, what stands in the buffers of the open blocks was written from trees, and together
they say what the events have said. -/

namespace DotDiagram

namespace Markdown

def Event.isText : Event → Bool
  | .text _ => true
  | _ => false

def Event.spoken : Event → List Char
  | .text s | .code s | .html s => s.toList
  | _ => []

/-- From the start of a code block to its end there are only texts. -/
def CodeIsText : List Event → Prop
  | [] => True
  | .start .codeBlock :: events =>
    (∀ e ∈ events.takeWhile (· ≠ .stop), e.isText = true) ∧ CodeIsText events
  | _ :: events => CodeIsText events

theorem CodeIsText.tail {e : Event} {events : List Event} (h : CodeIsText (e :: events)) :
    CodeIsText events := by
  unfold CodeIsText at h
  split at h
  · next heq => cases heq
  · next heq =>
    cases heq
    exact h.2
  · next heq =>
    cases heq
    exact h

/-- A tree that says a text, and besides has only what is the writer's own. -/
structure Tells (nodes : List Node) (spoken : List Char) : Prop where
  proper : Proper nodes
  kept : LessBlanks (said nodes) spoken

namespace Tells

variable {nodes nodes' : List Node} {spoken spoken' : List Char}

theorem nil : Tells [] [] := ⟨nofun, .refl []⟩

theorem append (h : Tells nodes spoken) (h' : Tells nodes' spoken') :
    Tells (nodes ++ nodes') (spoken ++ spoken') :=
  ⟨proper_append.mpr ⟨h.proper, h'.proper⟩, said_append nodes nodes' ▸ h.kept.append h'.kept⟩

theorem saidNodes (cs : List Char) : Tells (saidNodes cs) cs :=
  ⟨proper_saidNodes cs, (said_saidNodes cs).symm ▸ .refl cs⟩

theorem ownNodes {cs : List Char} (h : cs.all isSign = true) : Tells (ownNodes cs) [] :=
  ⟨proper_ownNodes h, (said_ownNodes cs).symm ▸ .refl []⟩

theorem event (e : Event) : Tells e.nodes e.spoken := by
  cases e with
  | start | stop | other => exact nil
  | text s | html s => exact saidNodes s.toList
  | code s => exact ⟨proper_codeSpanNodes s.toList, (said_codeSpanNodes s.toList).symm ▸ .refl _⟩
  | softBreak => exact ownNodes (by decide)
  | hardBreak => exact ⟨by simp [Proper, Event.nodes, marks, Node.marks, Mark.Proper], .refl []⟩
  | rule =>
    have hline : Tells (Markdown.ownNodes ruleLine.toList) [] := ownNodes (by decide)
    exact ⟨proper_leftRowNodes.mpr hline.proper, (said_wrap _ _).symm ▸ hline.kept⟩
  | taskMarker checked => cases checked <;> exact ownNodes (by decide)

theorem close {frame : Frame} (hm : frame.Marked) (h : Tells nodes spoken) (inItem : Bool)
    (table : TableState) : Tells (frame.nodes inItem table nodes) spoken :=
  ⟨frame.proper_nodes hm h.proper inItem table,
    (frame.lessBlanks_nodes inItem table nodes).trans h.kept⟩

theorem trimEnds (h : Tells nodes spoken) : Tells (trimEnds nodes) spoken :=
  ⟨h.proper.trimEnds, (lessBlanks_trimEnds nodes).trans h.kept⟩

end Tells

def inCode : List (Frame × String) → Bool
  | (.codeBlock, _) :: _ => true
  | _ => false

/-- Open blocks whose buffers, and the text around them, were written from trees. In a code
block nothing else opens, and all that stands in it was said. -/
inductive Stacked : List (Frame × String) → String → List Char → Prop
  | root {written nodes spoken} (hw : written = text nodes) (h : Tells nodes spoken) :
      Stacked [] written spoken
  | block {frames written before frame content nodes spoken}
      (outer : Stacked frames written before) (ho : inCode frames = false)
      (hm : frame.Marked) (hc : content = text nodes) (h : Tells nodes spoken)
      (hcode : frame = .codeBlock → nodes = saidNodes (said nodes)) :
      Stacked ((frame, content) :: frames) written (before ++ spoken)

theorem inCode_cons {frame : Frame} {content : String} {frames : List (Frame × String)} :
    inCode ((frame, content) :: frames) = true ↔ frame = .codeBlock := by
  cases frame <;> simp [inCode]

theorem proper_numbered (n : Nat) : Proper (markerNodes (toString n ++ ". ")) := by
  have hdigits : (toString n).toList.all isSign = true := by
    rw [Nat.toString_eq_ofList_toDigits, String.toList_ofList, List.all_eq_true]
    intro c hc
    rw [isSign, Nat.isDigit_of_mem_toDigits (by decide) (by decide) hc, Bool.true_or]
  have hend : ". ".toList.all isSign = true := by decide
  unfold markerNodes
  split
  · simp [Proper, marks, Node.marks, Mark.Proper, isSign]
  · apply proper_ownNodes
    rw [String.toList_append, List.all_append, hdigits, hend]
    rfl

theorem proper_bullet : Proper (markerNodes bullet) := by
  simp [Proper, markerNodes, marks, Node.marks, Mark.Proper, isSign]

namespace LabelWriter

theorem takeMarker_marked (frames : List (Frame × String)) :
    (Frame.item (takeMarker frames).1).Marked := by
  intro marker hmarker
  cases hmarker
  fun_induction takeMarker frames with
  | case1 => exact proper_bullet
  | case2 n content rest => exact proper_numbered n
  | case3 content rest => exact proper_bullet
  | case4 frame rest _ _ ih => exact ih

theorem inCode_takeMarker (frames : List (Frame × String)) :
    inCode (takeMarker frames).2 = inCode frames := by
  fun_cases takeMarker frames with
  | case1 | case2 | case3 => rfl
  | case4 frame => obtain ⟨frame, content⟩ := frame; cases frame <;> rfl

end LabelWriter

theorem Stacked.takeMarker {frames : List (Frame × String)} {written : String}
    {spoken : List Char} (h : Stacked frames written spoken) :
    Stacked (LabelWriter.takeMarker frames).2 written spoken := by
  fun_induction LabelWriter.takeMarker frames generalizing spoken with
  | case1 => exact h
  | case2 n content rest =>
    cases h with
    | block outer ho hm hc h hcode => exact .block outer ho nofun hc h nofun
  | case3 => exact h
  | case4 frame rest _ _ ih =>
    cases h with
    | block outer ho hm hc h hcode =>
      exact .block (ih outer) ((LabelWriter.inCode_takeMarker rest).trans ho) hm hc h hcode

/-- What the writer holds says what was spoken so far. -/
def LabelWriter.Holds (w : LabelWriter) (spoken : List Char) : Prop :=
  Stacked w.frames w.written spoken

namespace LabelWriter.Holds

variable {w : LabelWriter} {spoken : List Char}

theorem empty : LabelWriter.empty.Holds [] := Stacked.root rfl Tells.nil

theorem push (h : w.Holds spoken) {nodes : List Node} {new : List Char} (ht : Tells nodes new)
    (hcode : inCode w.frames = true → nodes = saidNodes (said nodes)) :
    (w.push (text nodes)).Holds (spoken ++ new) := by
  obtain ⟨written, frames, table⟩ := w
  cases h with
  | @root _ outer _ hw hroot =>
    have hpush : written ++ text nodes = text (outer ++ nodes) := by rw [text_append, ← hw]
    exact Stacked.root hpush (hroot.append ht)
  | @block frames _ before frame content inner spoken outer ho hm hc hin hsaid =>
    rw [List.append_assoc]
    refine Stacked.block outer ho hm (by rw [hc, text_append]) (hin.append ht) ?_
    intro hframe
    rw [said_append, saidNodes_append, ← hsaid hframe, ← hcode (inCode_cons.mpr hframe)]

theorem start (h : w.Holds spoken) (hc : inCode w.frames = false) (tag : Tag) :
    (w.start tag).Holds spoken := by
  rw [← List.append_nil spoken]
  rcases start_cases w tag with rfl | ⟨frame, table, hitem, hstart⟩
  · have hc' := (inCode_takeMarker w.frames).trans hc
    exact Stacked.block h.takeMarker hc' (takeMarker_marked w.frames) rfl Tells.nil fun _ => rfl
  · rw [hstart]
    have hm : frame.Marked := fun marker hf => absurd hf (hitem marker)
    exact Stacked.block h hc hm rfl Tells.nil fun _ => rfl

theorem stop (h : w.Holds spoken) : w.stop.Holds spoken := by
  obtain ⟨written, frames, table⟩ := w
  cases h with
  | root hw hroot => exact Stacked.root hw hroot
  | @block frames _ before frame content inner spoken outer ho hm hc hin hsaid =>
    have hclose : LabelWriter.stop ⟨written, (frame, content) :: frames, table⟩ =
        LabelWriter.close ⟨written, frames, table⟩ frame content := rfl
    rw [hclose, hc, close_text _ hsaid]
    have hw : LabelWriter.Holds ⟨written, frames, frame.leave table⟩ before := outer
    exact hw.push (hin.close hm _ _) (by rw [ho]; nofun)

/-- One event adds what it says. -/
theorem event (h : w.Holds spoken) {e : Event}
    (hcode : inCode w.frames = true → e = .stop ∨ e.isText = true) :
    (w.event e).Holds (spoken ++ e.spoken) := by
  rcases w.event_cases e with ⟨tag, rfl⟩ | rfl | hpush
  · have hc : inCode w.frames = false := by
      apply Bool.eq_false_iff.mpr
      intro hin
      rcases hcode hin with hstop | htext
      · cases hstop
      · cases htext
    exact (List.append_nil spoken).symm ▸ h.start hc tag
  · exact (List.append_nil spoken).symm ▸ h.stop
  · rw [hpush]
    apply h.push (Tells.event e)
    intro hin
    rcases hcode hin with rfl | htext
    · rfl
    · cases e with
      | text s => rw [Event.nodes, said_saidNodes]
      | _ => cases htext

end LabelWriter.Holds

namespace LabelWriter

variable {w : LabelWriter} {spoken : List Char}

theorem inCode_push (w : LabelWriter) (s : String) :
    inCode (w.push s).frames = inCode w.frames := by
  unfold push
  split
  · next h => rw [h]
  · next frame content rest h =>
    rw [h]
    cases frame <;> rfl

theorem inCode_stop (h : w.Holds spoken) : inCode w.stop.frames = false := by
  obtain ⟨written, frames, table⟩ := w
  cases h with
  | root => rfl
  | @block frames _ _ frame content _ _ _ ho =>
    obtain ⟨table', s, hclose⟩ := close_eq_push ⟨written, frames, table⟩ frame content
    have hstop : LabelWriter.stop ⟨written, (frame, content) :: frames, table⟩ =
        push ⟨written, frames, table'⟩ s := hclose
    rw [hstop, inCode_push]
    exact ho

/-- Nothing but its start leads into a code block, and a stop leads out of it. -/
theorem inCode_event (h : w.Holds spoken) {e : Event} (hin : inCode (w.event e).frames = true) :
    e = .start .codeBlock ∨ inCode w.frames = true ∧ e ≠ .stop := by
  by_cases hne : e = .stop
  · rw [hne] at hin
    exact nomatch hin.symm.trans (inCode_stop h)
  rcases w.event_cases e with ⟨tag, rfl⟩ | hstop | hpush
  · cases tag with
    | codeBlock => exact .inl rfl
    | _ => exact nomatch hin
  · exact absurd hstop hne
  · rw [hpush, inCode_push] at hin
    exact .inr ⟨hin, hne⟩

theorem holds_foldl {events : List Event} (hcode : CodeIsText events)
    (hin : inCode w.frames = true → ∀ e ∈ events.takeWhile (· ≠ .stop), e.isText = true)
    (h : w.Holds spoken) :
    (events.foldl event w).Holds (spoken ++ events.flatMap Event.spoken) := by
  induction events generalizing w spoken with
  | nil => exact (List.append_nil spoken).symm ▸ h
  | cons e events ih =>
    have htake (hne : e ≠ .stop) : (e :: events).takeWhile (· ≠ .stop) =
        e :: events.takeWhile (· ≠ .stop) := List.takeWhile_cons_of_pos (by simpa using hne)
    rw [List.foldl_cons, List.flatMap_cons, ← List.append_assoc]
    -- What is known of the next events depends on whether a code block is open before them.
    apply ih (CodeIsText.tail hcode)
    · intro hin'
      rcases inCode_event h hin' with rfl | ⟨hw, hne⟩
      · exact hcode.1
      · have htexts := hin hw
        rw [htake hne] at htexts
        exact fun e' he' => htexts e' (List.mem_cons_of_mem e he')
    · apply h.event
      intro hw
      by_cases hne : e = .stop
      · exact .inl hne
      · have htexts := hin hw
        rw [htake hne] at htexts
        exact .inr (htexts e List.mem_cons_self)

theorem length_frames_push (w : LabelWriter) (s : String) :
    (w.push s).frames.length = w.frames.length := by
  unfold push
  split
  · rfl
  · next h => rw [h, List.length_cons, List.length_cons]

theorem length_frames_stop (w : LabelWriter) : w.stop.frames.length = w.frames.length - 1 := by
  unfold stop
  split
  · next h => rw [h, List.length_nil]
  · next frame content rest h =>
    obtain ⟨table, s, hclose⟩ := close_eq_push { w with frames := rest } frame content
    rw [hclose, length_frames_push, h, List.length_cons, Nat.add_sub_cancel]

theorem holds_repeat_stop (h : w.Holds spoken) (n : Nat) :
    (n.repeat stop w).Holds spoken ∧ (n.repeat stop w).frames.length = w.frames.length - n := by
  induction n with
  | zero => exact ⟨h, rfl⟩
  | succ n ih =>
    rw [Nat.repeat]
    refine ⟨ih.1.stop, ?_⟩
    rw [length_frames_stop, ih.2, Nat.sub_sub]

theorem holds_finish (h : w.Holds spoken) :
    ∃ nodes, w.finish = text nodes ∧ Tells nodes spoken := by
  obtain ⟨hend, hlength⟩ := holds_repeat_stop h w.frames.length
  have hframes : (w.frames.length.repeat stop w).frames = [] := by
    rw [← List.length_eq_zero_iff, hlength, Nat.sub_self]
  unfold Holds at hend
  rw [hframes] at hend
  cases hend with
  | root hw hroot => exact ⟨_, hw, hroot⟩

end LabelWriter

theorem body_tells {events : List Event} (hcode : CodeIsText events) :
    ∃ nodes, body events = text nodes ∧ Tells nodes (events.flatMap Event.spoken) := by
  have hin : inCode LabelWriter.empty.frames = true →
      ∀ e ∈ events.takeWhile (· ≠ .stop), e.isText = true := fun h => nomatch h
  exact LabelWriter.holds_finish (LabelWriter.holds_foldl hcode hin .empty)

/-- From whatever events, a label is empty or a single table: properly nested, of the
writer's own tags, with escaped what the events say and nothing else of theirs. It can be
quoted between angle brackets. -/
theorem label_nested {events : List Event} (hcode : CodeIsText events) :
    ∃ rows : List Node, Proper rows ∧
      (∀ tag, .opening tag ∈ marks rows →
        tag.name ∈ ["TABLE", "TR", "TD", "FONT", "B", "I", "S"]) ∧
      LessBlanks (said rows) (events.flatMap Event.spoken) ∧
      (rows = [] ∧ labelOfEvents events = "" ∨
        labelOfEvents events = text [.element labelTag rows] ∧
        readLabel? (labelOfEvents events) = some [.element labelTag (items rows)]) ∧
      Dot.AngleBalanced (labelOfEvents events).toList ∧
      Dot.Spells ("<" ++ labelOfEvents events ++ ">").toList [.markup (labelOfEvents events)] := by
  obtain ⟨nodes, hbody, htells⟩ := body_tells hcode
  have hrows := htells.trimEnds
  have hlabel : Proper [.element labelTag (trimEnds nodes)] :=
    (proper_element (by decide)).mpr hrows.proper
  have hshape : trimEnds nodes = [] ∧ labelOfEvents events = "" ∨
      labelOfEvents events = text [.element labelTag (trimEnds nodes)] := by
    rw [labelOfEvents_eq hbody]
    split
    · next hempty => exact .inl ⟨List.isEmpty_iff.mp hempty, rfl⟩
    · exact .inr rfl
  have hb : Dot.AngleBalanced (labelOfEvents events).toList := by
    rcases hshape with ⟨-, he⟩ | he
    · rw [he]
      exact .nil
    · rw [he]
      exact hlabel.balanced
  refine ⟨trimEnds nodes, hrows.proper, fun _ => hrows.proper.name_mem, hrows.kept, ?_, hb,
    Dot.spells_markup hb⟩
  rcases hshape with he | he
  · exact .inl he
  · refine .inr ⟨he, ?_⟩
    rw [he]
    exact hlabel.read

/-- A stream with a stop too many, signs that look like markup, and blocks left open. -/
def ragged : List Event :=
  [.stop, .start .quote, .start .paragraph, .text "a < b &#8226;", .start .strong, .code "</TD>",
    .html "<br>", .stop, .stop, .start .codeBlock, .text "x\n", .text "<TR>\n"]

theorem ragged_nested :
    CodeIsText ragged ∧ ∃ rows : List Node, Proper rows ∧
      labelOfEvents ragged = text [.element labelTag rows] ∧
      readLabel? (labelOfEvents ragged) = some [.element labelTag (items rows)] := by
  have hcode : CodeIsText ragged := by simp [CodeIsText, ragged, Event.isText]
  obtain ⟨rows, hproper, -, hkept, ⟨hrows, -⟩ | hlabel, -⟩ := label_nested hcode
  · have hseen := hkept.seen
    rw [hrows] at hseen
    exact absurd hseen (by decide)
  · exact ⟨hcode, rows, hproper, hlabel⟩

end Markdown

end DotDiagram
