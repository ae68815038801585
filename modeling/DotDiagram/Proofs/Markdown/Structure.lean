import DotDiagram.Proofs.Markdown.Document
import DotDiagram.Proofs.Markdown.Placement

/-! Which documents have labels with the structure of a table. What a stream puts into the
buffer it finds is a tree; it fits there just if no row was put into an item, and no text
directly into a table. -/

namespace DotDiagram

namespace Markdown

open Markup (Place fits)

/-- A label is empty or one table, in which tables have only rows, rows only cells, and
neither stands anywhere else. -/
def Structured (label : String) : Prop :=
  label = "" ∨ ∃ tag rows, readLabel? label = some [.element tag rows] ∧ tag.name = "TABLE" ∧
    fits .table rows = true

def Event.isPlaced (inItem : Bool) : Event → Bool
  | .rule => !inItem
  | _ => true

/-- Headings, code, quotes and tables become rows, so they are out of place in an item; what
HTML says is left as it is, so it has to be in one. -/
def Tag.isPlaced (inItem : Bool) (spoken : List Char) : Tag → Bool
  | .heading _ | .codeBlock | .quote | .table _ => !inItem
  | .htmlBlock => inItem || spoken.all isBlank
  | _ => true

namespace EventForest

def spoken (f : EventForest) : List Char := f.events.flatMap Event.spoken

/-- At any depth, no block and no rule is out of place. -/
def isPlaced (inItem : Bool) : EventForest → Bool
  | nil => true
  | single e _ rest => e.isPlaced inItem && rest.isPlaced inItem
  | block tag content rest =>
    tag.isPlaced inItem content.spoken && content.isPlaced (tag == .item) && rest.isPlaced inItem

end EventForest

/-- Where the markup of what stands there has to fit. -/
def Setting.place : Setting → Place
  | .flow | .list | .table => .table
  | .row => .row
  | .item | .spans | .raw => .text

/-! ### One event, one block -/

theorem fits_rule (inItem : Bool) : fits (home inItem) (items Event.rule.nodes) = !inItem := by
  rw [Event.nodes, fits_leftRowNodes, fits_ownNodes, Bool.and_true]

theorem Event.fits_inline {e : Event} (h : e.isInline = true) :
    fits .text (items e.nodes) = true := by
  cases e with
  | text s | html s => exact fits_saidNodes .text s.toList
  | code s => exact fits_codeSpanNodes s.toList
  | taskMarker checked => exact fits_ownNodes _
  | softBreak | hardBreak => rfl
  | start | stop | rule | other => cases h

theorem Event.isPlaced_inline {e : Event} (h : e.isInline = true) (inItem : Bool) :
    e.isPlaced inItem = true := by
  cases e with
  | rule => cases h
  | _ => rfl

/-- An event fits where it may stand, but for rules in items. -/
theorem Event.fits_nodes {s : Setting} {e : Event} (hs : s ≠ .raw) (h : s.says e = true) :
    fits s.place (items e.nodes) = e.isPlaced (s == .item) := by
  cases s with
  | raw => exact absurd rfl hs
  | list | table | row => cases h
  | flow =>
    obtain rfl : e = .rule := beq_iff_eq.mp h
    exact fits_rule false
  | item =>
    rcases Bool.or_eq_true_iff.mp h with h | h
    · obtain rfl : e = .rule := beq_iff_eq.mp h
      exact fits_rule true
    · rw [e.isPlaced_inline h]
      exact e.fits_inline h
  | spans =>
    rw [e.isPlaced_inline h]
    exact e.fits_inline h

section

variable {s : Setting} {tag : Tag} (marker : String)

/-- A block is wrapped for the setting that it stands in. -/
theorem Setting.place_frame (h : s.admits tag = true) :
    (tag.frame marker).place (s == .item) = s.place := by
  cases s <;> cases tag <;> first
    | cases h; done
    | rfl

/-- Apart from what is left as it is, it depends on the block alone where its content has to
fit, and whether it is in place. -/
theorem Tag.frame_inside (h : tag.inside ≠ .raw) (inItem : Bool) (spoken : List Char) :
    (tag.frame marker).inside inItem = tag.inside.place ∧
      (tag.frame marker).isPlaced inItem = tag.isPlaced inItem spoken ∧
      (tag.inside == .item) = (tag == .item) := by
  cases tag <;> first
    | exact absurd rfl h
    | exact ⟨rfl, rfl, rfl⟩

theorem Tag.frame_eq_codeBlock : tag.frame marker = .codeBlock ↔ tag = .codeBlock := by
  cases tag <;> simp [Tag.frame]

end

namespace LabelWriter

variable {w w' w'' : LabelWriter} {place : Place} {ok ok' : Bool}

/-- The second writer is the first with a tree put in. -/
def Writes (w w' : LabelWriter) (place : Place) (ok : Bool) : Prop :=
  ∃ nodes, Adds w w' (text nodes) ∧ Proper nodes ∧ fits place (items nodes) = ok

theorem marked_frame (frames : List (Frame × String)) (tag : Tag) :
    (tag.frame (takeMarker frames).1).Marked := by
  intro marker hmarker
  cases tag with
  | item => exact takeMarker_marked frames marker hmarker
  | _ => cases hmarker

namespace Writes

theorem refl (w : LabelWriter) : Writes w w place true := ⟨[], .refl w, nofun, rfl⟩

theorem trans (h : Writes w w' place ok) (h' : Writes w' w'' place ok') :
    Writes w w'' place (ok && ok') := by
  obtain ⟨nodes, hadds, hp, rfl⟩ := h
  obtain ⟨nodes', hadds', hp', rfl⟩ := h'
  refine ⟨nodes ++ nodes', ?_, proper_append.mpr ⟨hp, hp'⟩, fits_append place _ _⟩
  rw [text_append]
  exact hadds.trans hadds'

theorem inItem (h : Writes w w' place ok) : w'.inItem = w.inItem := by
  obtain ⟨nodes, hadds, -⟩ := h
  exact hadds.inItem

theorem event {s : Setting} {e : Event} (plain : e.isPlain = true) (hs : s ≠ .raw)
    (he : s.says e = true) (w : LabelWriter) :
    Writes w (w.event e) s.place (e.isPlaced (s == .item)) := by
  refine ⟨e.nodes, ?_, (Tells.event e).proper, Event.fits_nodes hs he⟩
  rw [event_eq_push plain]
  exact .push w (text e.nodes)

/-- What a block hands over fits if the block may stand there and its content fits. -/
theorem stop {tag : Tag} {content : EventForest} {frame : Frame} {nodes : List Node}
    {inItem : Bool} (hframe : tag.frame (takeMarker w.frames).1 = frame) (hw : w.inItem = inItem)
    (h : Adds (w.start tag) ((w.start tag).run content) (text nodes)) (hp : Proper nodes)
    (hcode : tag = .codeBlock → nodes = saidNodes (said nodes)) :
    Writes w ((w.start tag).run content).stop (frame.place inItem)
      (frame.isPlaced inItem && fits (frame.inside inItem) (items nodes)) := by
  have hsaid : frame = .codeBlock → nodes = saidNodes (said nodes) := fun h =>
    hcode ((Tag.frame_eq_codeBlock _).mp (hframe.trans h))
  have hm : frame.Marked := hframe ▸ marked_frame w.frames tag
  refine ⟨frame.nodes inItem ((w.start tag).run content).table nodes, adds_stop h ?_,
    frame.proper_nodes hm hp _ _, frame.fits_nodes _ _ hsaid⟩
  intro v hv htable
  rw [hframe, ← hw, ← hv, ← htable]
  exact ⟨_, v.close_text hsaid⟩

end Writes

theorem inItem_start (w : LabelWriter) (tag : Tag) : (w.start tag).inItem = (tag == .item) := by
  cases tag <;> rfl

/-! ### A whole stream -/

/-- In code and HTML, everything that is said is left as it is. -/
theorem adds_raw {f : EventForest} (h : f.standsIn .raw = true) (inItem : Bool) (w : LabelWriter) :
    Adds w (w.run f) (text (saidNodes f.spoken)) ∧ f.isPlaced inItem = true := by
  induction f generalizing w with
  | nil => exact ⟨.refl w, rfl⟩
  | single e plain rest ih =>
    obtain ⟨he, hrest⟩ := EventForest.standsIn_single.mp h
    obtain ⟨hadds, hplaced⟩ := ih hrest (w.event e)
    have hnodes : e.nodes = saidNodes e.spoken ∧ e.isPlaced inItem = true := by
      cases e with
      | text s | html s => exact ⟨rfl, rfl⟩
      | _ => cases he
    have hevent : Adds w (w.event e) (text (saidNodes e.spoken)) := by
      rw [event_eq_push plain, hnodes.1]
      exact .push w _
    have hspoken : (EventForest.single e plain rest).spoken = e.spoken ++ rest.spoken :=
      List.flatMap_cons
    rw [hspoken, saidNodes_append, text_append, EventForest.isPlaced, hnodes.2, hplaced]
    exact ⟨hevent.trans hadds, rfl⟩
  | block tag content rest =>
    cases (EventForest.standsIn_block.mp h).1

theorem writes_raw {tag : Tag} {content : EventForest} {s : Setting} (htag : s.admits tag = true)
    (hraw : tag.inside = .raw) (h : content.standsIn .raw = true) (hw : w.inItem = (s == .item)) :
    Writes w ((w.start tag).run content).stop s.place
      (tag.isPlaced (s == .item) content.spoken && content.isPlaced (tag == .item)) := by
  obtain ⟨hadds, hplaced⟩ := adds_raw h (tag == .item) (w.start tag)
  have hsaid : saidNodes content.spoken = saidNodes (said (saidNodes content.spoken)) := by
    rw [said_saidNodes]
  have hstop := Writes.stop rfl hw hadds (proper_saidNodes _) fun _ => hsaid
  rw [s.place_frame _ htag, fits_saidNodes] at hstop
  rw [hplaced]
  cases tag with
  | codeBlock => exact hstop
  | htmlBlock =>
    rw [Bool.and_true]
    cases s <;> exact hstop
  | other => cases s <;> cases htag
  | _ => cases hraw

/-- Whatever a stream is put into that it may stand in, it writes a tree there. -/
theorem writes_run {f : EventForest} {s : Setting} (hs : s ≠ .raw) (hf : f.standsIn s = true)
    {w : LabelWriter} (hw : w.inItem = (s == .item)) :
    Writes w (w.run f) s.place (f.isPlaced (s == .item)) := by
  induction f generalizing s w with
  | nil => exact .refl w
  | single e plain rest ih =>
    obtain ⟨he, hrest⟩ := EventForest.standsIn_single.mp hf
    have hevent := Writes.event plain hs he w
    exact hevent.trans (ih hs hrest (hevent.inItem.trans hw))
  | block tag content rest ihc ihr =>
    obtain ⟨htag, hcontent, hrest⟩ := EventForest.standsIn_block.mp hf
    have hblock : Writes w ((w.start tag).run content).stop s.place
        (tag.isPlaced (s == .item) content.spoken && content.isPlaced (tag == .item)) := by
      by_cases hraw : tag.inside = .raw
      · exact writes_raw htag hraw (hraw ▸ hcontent) hw
      · obtain ⟨hinside, hplaced, hitem⟩ :=
          Tag.frame_inside (takeMarker w.frames).1 hraw (s == .item) content.spoken
        -- Inside, the writer is in an item just if the block is one, wherever that stands.
        have hstart : (w.start tag).inItem = (tag.inside == .item) := by
          rw [inItem_start, hitem]
        obtain ⟨nodes, hadds, hp, hfits⟩ := ihc hraw hcontent hstart
        have hcode : tag = .codeBlock → nodes = saidNodes (said nodes) := fun h =>
          absurd (congrArg Tag.inside h) hraw
        have hstop := Writes.stop rfl hw hadds hp hcode
        rwa [s.place_frame _ htag, hplaced, hinside, hfits, hitem] at hstop
    rw [run_block]
    exact hblock.trans (ihr hs hrest (hblock.inItem.trans hw))

/-- What the writer holds at the end, when nothing is left open. -/
theorem finish_of_adds {s : String} (h : Adds .empty w s) : w.finish = s := by
  obtain ⟨written, frames, table⟩ := w
  obtain ⟨hwritten, hframes⟩ : written = s ∧ frames = [] := by
    simpa [Adds, unnumbered, push, empty] using h
  rw [hwritten, hframes]
  rfl

end LabelWriter

/-- A label has the structure of a table just if nothing of the document that it is written
from is out of place. -/
theorem structured_iff_isPlaced {f : EventForest} (hf : f.standsIn .flow = true) :
    Structured (labelOfEvents f.events) ↔ f.isPlaced false = true := by
  have hempty : LabelWriter.empty.inItem = (Setting.flow == .item) := rfl
  obtain ⟨nodes, hadds, hp, hfits⟩ := LabelWriter.writes_run (by decide) hf hempty
  have hbody : body f.events = text nodes := LabelWriter.finish_of_adds hadds
  have hrows : fits .table (items (trimEnds nodes)) = f.isPlaced false := by
    rw [fits_trimEnds]
    exact hfits
  have hproper : Proper (wrap [labelTag] (trimEnds nodes)) :=
    (proper_wrap (by decide)).mpr hp.trimEnds
  rw [labelOfEvents_eq hbody, ← hrows]
  split
  · next h =>
    rw [List.isEmpty_iff.mp h]
    exact ⟨fun _ => rfl, fun _ => .inl rfl⟩
  · constructor
    · rintro (hnil | ⟨tag, rows, hread, -, hfit⟩)
      · have hne := text_isEmpty (wrap [labelTag] (trimEnds nodes))
        rw [hnil] at hne
        cases hne
      · cases hread.symm.trans hproper.read
        exact hfit
    · exact fun hfit => .inr ⟨labelTag, _, hproper.read, rfl, hfit⟩

/-- The label of a document has the structure of a table just if none of its headings, rules,
quotes, code blocks and tables stands in an item of a list, and no HTML that says anything
outside of one. A reader of Markdown makes such a document of every text. -/
theorem label_structured_iff {parse : String → List Event} (hparse : ReadsDocuments parse) :
    (∀ f : EventForest, f.standsIn .flow = true →
      (Structured (labelOfEvents f.events) ↔ f.isPlaced false = true)) ∧
    ∀ text, ∃ f : EventForest, f.events = parse text ∧ f.standsIn .flow = true ∧
      (Structured (labelOfEvents (parse text)) ↔ f.isPlaced false = true) := by
  refine ⟨fun f => structured_iff_isPlaced, fun text => ?_⟩
  obtain ⟨f, hf⟩ := hparse.nested text
  have hstands := hparse.arranged hf
  refine ⟨f, hf, hstands, ?_⟩
  rw [← hf]
  exact structured_iff_isPlaced hstands

/-- A title in an item, such as `- # Title`. -/
def titledItem : EventForest :=
  .block (.list none) (.block .item
    (.block (.heading .h1) (.single (.text "Title") rfl .nil) .nil) .nil) .nil

/-- A title in a quote, such as `> # Title`. -/
def titledQuote : EventForest :=
  .block .quote (.block (.heading .h1) (.single (.text "Title") rfl .nil) .nil) .nil

/-- Numbered items, one with a task and text in a tight list of its own, one with HTML. -/
def mixedList : EventForest :=
  .block (.list (some 1)) (.block .item
    (.block .paragraph (.single (.text "tea") rfl .nil) (.block (.list none) (.block .item
      (.single (.taskMarker true) rfl (.single (.text "milk") rfl .nil)) .nil) .nil))
    (.block .item (.block .htmlBlock (.single (.html "<div>") rfl .nil) .nil) .nil)) .nil

/-- A reader that knows two texts and takes any other for a single paragraph. -/
def titleReader (text : String) : List Event :=
  if text = "- # Title" then titledItem.events
  else if text = "> # Title" then titledQuote.events
  else [.start .paragraph, .text text, .stop]

theorem titles_structured :
    ReadsDocuments titleReader ∧ mixedList.standsIn .flow = true ∧
      Structured (labelOfEvents mixedList.events) ∧
      Structured (labelOfEvents (titleReader "> # Title")) ∧
      ¬ Structured (labelOfEvents (titleReader "- # Title")) := by
  have hreads : ReadsDocuments titleReader := by
    refine readsDocuments_iff.mpr fun text => ?_
    unfold titleReader
    split
    · exact ⟨titledItem, rfl, rfl⟩
    · split
      · exact ⟨titledQuote, rfl, rfl⟩
      · exact ⟨.block .paragraph (.single (.text text) rfl .nil) .nil, rfl, rfl⟩
  obtain ⟨hdocument, hreader⟩ := label_structured_iff hreads
  obtain ⟨quote, hquote, -, hquoted⟩ := hreader "> # Title"
  obtain ⟨item, hitem, -, hlisted⟩ := hreader "- # Title"
  obtain rfl : quote = titledQuote := EventForest.events_inj hquote
  obtain rfl : item = titledItem := EventForest.events_inj hitem
  refine ⟨hreads, rfl, (hdocument mixedList rfl).mpr rfl, hquoted.mpr rfl, fun h => ?_⟩
  cases hlisted.mp h

/-- A heading in an item puts a row into its cell. -/
theorem titled_item_not_structured :
    let stream := [Event.start (.list none), .start .item, .start (.heading .h1), .text "Title",
      .stop, .stop, .stop]
    titledItem.events = stream ∧ titledItem.standsIn .flow = true ∧
      labelOfEvents stream =
        "<TABLE BORDER=\"0\" CELLBORDER=\"0\" CELLSPACING=\"0\"><TR><TD>" ++
          "<TABLE BORDER=\"0\" CELLBORDER=\"0\" CELLSPACING=\"0\" CELLPADDING=\"2\">" ++
          "<TR><TD ALIGN=\"LEFT\">&#8226; <TR><TD ALIGN=\"LEFT\">" ++
          "<FONT POINT-SIZE=\"20\"><B>Title</B></FONT></TD></TR>" ++
          "</TD></TR></TABLE></TD></TR></TABLE>" ∧
      ¬ Structured (labelOfEvents stream) := by
  refine ⟨rfl, rfl, by decide +kernel, fun h => ?_⟩
  have hiff := structured_iff_isPlaced (f := titledItem) rfl
  cases hiff.mp h

end Markdown

end DotDiagram
