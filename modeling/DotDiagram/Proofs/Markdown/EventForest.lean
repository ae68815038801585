import DotDiagram.Proofs.Markdown.Nesting

/-! Well-nested streams of events. Whatever stands between the start of a block and its
stop ends up in the buffer of that block, and what the block hands over goes to the one
around it. The blocks further out are left alone, but for the numbers of lists. -/

namespace DotDiagram

namespace Markdown

def Event.isPlain : Event → Bool
  | .start _ | .stop => false
  | _ => true

def Tag.isList : Tag → Bool
  | .list _ => true
  | _ => false

/-- What stands on the stack for a block, and has a marker if it is an item. -/
def Tag.frame (marker : String) : Tag → Frame
  | .paragraph => .paragraph
  | .heading level => .heading level
  | .emphasis => .emphasis
  | .strong => .strong
  | .strikethrough => .strikethrough
  | .link => .link
  | .image => .image
  | .list first => .list first
  | .item => .item marker
  | .codeBlock => .codeBlock
  | .quote => .quote
  | .table _ => .table
  | .tableHead => .tableHead
  | .tableRow => .tableRow
  | .tableCell => .tableCell
  | .htmlBlock | .other => .htmlBlock

/-- The block with another number, if it is a list. -/
def Frame.renumber (next : Option Nat) : Frame → Frame
  | .list _ => .list next
  | frame => frame

/-- A stream in which every block that starts also stops. -/
inductive EventForest where
  | nil
  | single (e : Event) (plain : e.isPlain = true) (rest : EventForest)
  | block (tag : Tag) (content rest : EventForest)

/-- Where something stands with regard to tables: in none, directly in a table, directly in
its head or in one of its rows, or further inside. -/
inductive TablePlace where
  | outside | table | row | inside
  deriving DecidableEq

/-- Tables are not nested, their heads and rows stand directly in them, and cells directly
in these. -/
def TablePlace.within? : TablePlace → Tag → Option TablePlace
  | .outside, .table _ => some .table
  | .outside, .tableCell => none
  | .outside, _ => some .outside
  | .table, .tableHead | .table, .tableRow => some .row
  | .row, .tableCell => some .inside
  | _, .table _ | _, .tableHead | _, .tableRow | _, .tableCell => none
  | _, _ => some .inside

namespace EventForest

def events : EventForest → List Event
  | nil => []
  | single e _ rest => e :: rest.events
  | block tag content rest => .start tag :: (content.events ++ .stop :: rest.events)

def append : EventForest → EventForest → EventForest
  | nil, g => g
  | single e plain rest, g => .single e plain (rest.append g)
  | block tag content rest, g => .block tag content (rest.append g)

instance : Append EventForest := ⟨append⟩

/-- Items start directly in lists and nowhere else. -/
def itemsListed (inList : Bool) : EventForest → Bool
  | nil => true
  | single _ _ rest => rest.itemsListed inList
  | block tag content rest =>
    (inList || tag != .item) && content.itemsListed tag.isList && rest.itemsListed inList

def tablesPlaced (place : TablePlace) : EventForest → Bool
  | nil => true
  | single _ _ rest => rest.tablesPlaced place
  | block tag content rest =>
    ((place.within? tag).any fun inner => content.tablesPlaced inner) && rest.tablesPlaced place

/-- The blocks of a kind among those that stand in no other. -/
def count (tag : Tag) : EventForest → Nat
  | nil => 0
  | single _ _ rest => rest.count tag
  | block tag' _ rest => if tag' = tag then rest.count tag + 1 else rest.count tag

/-- A block of the stream, with the events that come before its start and after its stop. -/
inductive Occurs (tag : Tag) (content : EventForest) :
    EventForest → List Event → List Event → Prop where
  | here (rest : EventForest) : Occurs tag content (.block tag content rest) [] rest.events
  | inside {tag' : Tag} {inner : EventForest} (rest : EventForest) {before after : List Event}
      (h : Occurs tag content inner before after) :
      Occurs tag content (.block tag' inner rest) (.start tag' :: before)
        (after ++ .stop :: rest.events)
  | afterSingle {e : Event} (plain : e.isPlain = true) {rest : EventForest}
      {before after : List Event} (h : Occurs tag content rest before after) :
      Occurs tag content (.single e plain rest) (e :: before) after
  | afterBlock {tag' : Tag} (inner : EventForest) {rest : EventForest}
      {before after : List Event} (h : Occurs tag content rest before after) :
      Occurs tag content (.block tag' inner rest)
        (.start tag' :: (inner.events ++ .stop :: before)) after

section

variable {f g content : EventForest} {tag : Tag} {before after : List Event} {inList : Bool}

@[simp]
theorem nil_append : nil ++ g = g := rfl

@[simp]
theorem single_append (e : Event) (plain : e.isPlain = true) :
    single e plain f ++ g = single e plain (f ++ g) := rfl

@[simp]
theorem block_append : block tag content f ++ g = block tag content (f ++ g) := rfl

theorem events_append (f g : EventForest) : (f ++ g).events = f.events ++ g.events := by
  induction f with
  | nil => rfl
  | single e plain rest ih => simp [events, ih]
  | block tag content rest _ ih => simp [events, ih]

theorem itemsListed_append :
    (f ++ g).itemsListed inList = (f.itemsListed inList && g.itemsListed inList) := by
  induction f with
  | nil => rfl
  | single e plain rest ih => exact ih
  | block tag content rest _ ih => simp [itemsListed, ih, Bool.and_assoc]

theorem tablesPlaced_append {place : TablePlace} :
    (f ++ g).tablesPlaced place = (f.tablesPlaced place && g.tablesPlaced place) := by
  induction f with
  | nil => rfl
  | single e plain rest ih => exact ih
  | block tag content rest _ ih => simp [tablesPlaced, ih, Bool.and_assoc]

theorem count_item_eq_zero (h : f.itemsListed false = true) : f.count .item = 0 := by
  induction f with
  | nil => rfl
  | single e plain rest ih => exact ih h
  | block tag content rest _ ih =>
    simp only [itemsListed, Bool.false_or, Bool.and_eq_true, bne_iff_ne] at h
    rw [count, if_neg h.1.1]
    exact ih h.2

theorem Occurs.events_eq (h : Occurs tag content f before after) :
    f.events = before ++ .start tag :: (content.events ++ .stop :: after) := by
  induction h with
  | here rest => rfl
  | inside rest h ih => simp [events, ih]
  | afterSingle plain h ih => simp [events, ih]
  | afterBlock inner h ih => simp [events, ih]

theorem Occurs.itemsListed (h : Occurs tag content f before after)
    (hf : f.itemsListed inList = true) : content.itemsListed tag.isList = true := by
  induction h generalizing inList with
  | here rest =>
    simp only [EventForest.itemsListed, Bool.and_eq_true] at hf
    exact hf.1.2
  | inside rest h ih =>
    simp only [EventForest.itemsListed, Bool.and_eq_true] at hf
    exact ih hf.1.2
  | afterSingle plain h ih => exact ih hf
  | afterBlock inner h ih =>
    simp only [EventForest.itemsListed, Bool.and_eq_true] at hf
    exact ih hf.2

/-- Since tables are not nested, whatever stands before a table does not matter to it. -/
theorem Occurs.tablesPlaced {alignments : List Alignment} {place : TablePlace}
    (h : Occurs (.table alignments) content f before after) (hf : f.tablesPlaced place = true) :
    content.tablesPlaced .table = true := by
  induction h generalizing place with
  | here rest =>
    simp only [EventForest.tablesPlaced, Bool.and_eq_true, Option.any_eq_true] at hf
    obtain ⟨⟨inner, hinner, hcontent⟩, -⟩ := hf
    cases place with
    | outside =>
      cases hinner
      exact hcontent
    | table | row | inside => cases hinner
  | inside rest h ih =>
    simp only [EventForest.tablesPlaced, Bool.and_eq_true, Option.any_eq_true] at hf
    obtain ⟨⟨inner, -, hcontent⟩, -⟩ := hf
    exact ih hcontent
  | afterSingle plain h ih => exact ih hf
  | afterBlock inner h ih =>
    simp only [EventForest.tablesPlaced, Bool.and_eq_true] at hf
    exact ih hf.2

end

end EventForest

namespace LabelWriter

/-- The writer after a stream. -/
def run (w : LabelWriter) (f : EventForest) : LabelWriter := f.events.foldl event w

section

variable (w : LabelWriter)

@[simp]
theorem run_nil : w.run .nil = w := rfl

@[simp]
theorem run_single (e : Event) (plain : e.isPlain = true) (rest : EventForest) :
    w.run (.single e plain rest) = (w.event e).run rest := rfl

@[simp]
theorem run_block (tag : Tag) (content rest : EventForest) :
    w.run (.block tag content rest) = ((w.start tag).run content).stop.run rest := by
  simp [run, EventForest.events, event]

theorem run_append (f g : EventForest) : w.run (f ++ g) = (w.run f).run g := by
  simp [run, EventForest.events_append]

end

/-- The writer without the numbers of its lists and its place in the table. -/
def unnumbered (w : LabelWriter) : LabelWriter :=
  ⟨w.written, w.frames.map fun block => (block.1.renumber none, block.2), ⟨[], false, 0⟩⟩

/-- The second writer is the first with a text put in. Numbers of lists and the place in
the table may differ. -/
def Adds (w w' : LabelWriter) (s : String) : Prop := w'.unnumbered = w.unnumbered.push s

/-- The second writer is the first with one more block open, in which a text was written. -/
def Opens (w w' : LabelWriter) (frame : Frame) (s : String) : Prop :=
  ∃ v, Adds w v "" ∧ w' = { v with frames := (frame, s) :: v.frames }

section

variable {w w' w'' : LabelWriter} {s t u : String} {frame : Frame} {tag : Tag}

theorem unnumbered_push (w : LabelWriter) (s : String) :
    (w.push s).unnumbered = w.unnumbered.push s := by
  obtain ⟨written, frames, table⟩ := w
  cases frames <;> rfl

theorem inItem_unnumbered (w : LabelWriter) : w.unnumbered.inItem = w.inItem := by
  obtain ⟨written, frames, table⟩ := w
  cases frames with
  | nil => rfl
  | cons block rest =>
    obtain ⟨frame, content⟩ := block
    cases frame <;> rfl

theorem inItem_push (w : LabelWriter) (s : String) : (w.push s).inItem = w.inItem := by
  obtain ⟨written, frames, table⟩ := w
  cases frames with
  | nil => rfl
  | cons block rest =>
    obtain ⟨frame, content⟩ := block
    cases frame <;> rfl

theorem event_eq_push {e : Event} (plain : e.isPlain = true) :
    w.event e = w.push (text e.nodes) := by
  rcases w.event_cases e with ⟨tag, rfl⟩ | rfl | he
  · cases plain
  · cases plain
  · exact he

theorem push_push (w : LabelWriter) (s t : String) : (w.push s).push t = w.push (s ++ t) := by
  obtain ⟨written, frames, table⟩ := w
  cases frames <;> simp [push, String.append_assoc]

theorem push_left_inj : w.push s = w.push t ↔ s = t := by
  obtain ⟨written, frames, table⟩ := w
  cases frames <;> simp [push]

namespace Adds

theorem push (w : LabelWriter) (s : String) : Adds w (w.push s) s := w.unnumbered_push s

theorem refl (w : LabelWriter) : Adds w w "" := w.unnumbered.push_empty.symm

theorem trans (h : Adds w w' s) (h' : Adds w' w'' t) : Adds w w'' (s ++ t) := by
  unfold Adds at *
  rw [h', h, push_push]

theorem unique (h : Adds w w' s) (h' : Adds w w' t) : s = t :=
  push_left_inj.mp (h.symm.trans h')

theorem inItem (h : Adds w w' s) : w'.inItem = w.inItem := by
  rw [← w'.inItem_unnumbered, h, inItem_push, inItem_unnumbered]

end Adds

theorem takeMarker_unnumbered (frames : List (Frame × String)) :
    ((takeMarker frames).2.map fun block => (block.1.renumber none, block.2)) =
      frames.map fun block => (block.1.renumber none, block.2) := by
  fun_induction takeMarker frames with
  | case1 => rfl
  | case2 | case3 => rfl
  | case4 block rest _ _ ih => simp [ih]

theorem adds_takeMarker (w : LabelWriter) :
    Adds w { w with frames := (takeMarker w.frames).2 } "" := by
  unfold Adds unnumbered
  rw [takeMarker_unnumbered]
  exact Adds.refl w

/-- An item takes its marker from the lists around it, and nothing else does. -/
theorem opens_start (w : LabelWriter) (tag : Tag) :
    Opens w (w.start tag) (tag.frame (takeMarker w.frames).1) "" := by
  cases tag with
  | item => exact ⟨_, w.adds_takeMarker, rfl⟩
  | table alignments => exact ⟨{ w with table := ⟨alignments, false, 0⟩ }, .refl w, rfl⟩
  | tableHead => exact ⟨{ w with table := ⟨w.table.alignments, true, 0⟩ }, .refl w, rfl⟩
  | tableRow => exact ⟨{ w with table := { w.table with column := 0 } }, .refl w, rfl⟩
  | _ => exact ⟨w, .refl w, rfl⟩

/-- The block stays open; if it is a list, its number may have moved on. -/
theorem Opens.add (h : Opens w w' frame s) (ha : Adds w' w'' t) :
    ∃ frame', frame'.renumber none = frame.renumber none ∧ Opens w w'' frame' (s ++ t) := by
  obtain ⟨v, hv, rfl⟩ := h
  obtain ⟨written, frames, table⟩ := w''
  obtain ⟨hwritten, hframes⟩ : written = v.written ∧ _ := by
    simpa [Adds, unnumbered, LabelWriter.push] using ha
  obtain ⟨⟨frame', content⟩, rest, rfl, hblock, hrest⟩ := List.map_eq_cons_iff.mp hframes
  obtain ⟨hframe, rfl⟩ := Prod.mk.inj hblock
  refine ⟨frame', hframe, ⟨written, rest, table⟩, ?_, rfl⟩
  unfold Adds at hv ⊢
  rw [← hv]
  simp [unnumbered, hwritten, hrest]

theorem close_renumber (w : LabelWriter) (next : Option Nat) (frame : Frame) (s : String) :
    w.close (frame.renumber next) s = w.close frame s := by
  cases frame <;> rfl

theorem exists_adds (w : LabelWriter) (f : EventForest) : ∃ s, Adds w (w.run f) s := by
  induction f generalizing w with
  | nil => exact ⟨_, .refl w⟩
  | single e plain rest ih =>
    obtain ⟨t, hrest⟩ := ih (w.event e)
    have hevent : Adds w (w.event e) (text e.nodes) := event_eq_push plain ▸ .push w _
    exact ⟨_, hevent.trans hrest⟩
  | block tag content rest ihc ihr =>
    obtain ⟨s, hcontent⟩ := ihc (w.start tag)
    obtain ⟨frame', -, v, hv, hlast⟩ := (w.opens_start tag).add hcontent
    obtain ⟨table, u, hu⟩ := v.close_eq_push frame' ("" ++ s)
    have hstop : ((w.start tag).run content).stop = { v with table := table }.push u := by
      rw [hlast]
      exact hu
    obtain ⟨t, hrest⟩ := ihr ((w.start tag).run content).stop
    rw [run_block]
    rw [hstop] at hrest ⊢
    exact ⟨_, (hv.trans (.push { v with table := table } u)).trans hrest⟩

/-- A block just before it stops. -/
theorem opens_run (w : LabelWriter) (tag : Tag) (content : EventForest) :
    ∃ frame s, frame.renumber none = (tag.frame (takeMarker w.frames).1).renumber none ∧
      Opens w ((w.start tag).run content) frame s ∧
      Adds (w.start tag) ((w.start tag).run content) s := by
  obtain ⟨s, hcontent⟩ := (w.start tag).exists_adds content
  obtain ⟨frame, hframe, hopens⟩ := (w.opens_start tag).add hcontent
  rw [String.empty_append] at hopens
  exact ⟨frame, s, hframe, hopens, hcontent⟩

/-- What a block hands over depends on what was written in it, on its place and on the
table. -/
theorem adds_stop {content : EventForest} (h : Adds (w.start tag) ((w.start tag).run content) s)
    (hclose : ∀ v : LabelWriter, v.inItem = w.inItem →
      v.table = ((w.start tag).run content).table →
      ∃ table, v.close (tag.frame (takeMarker w.frames).1) s = { v with table := table }.push u) :
    Adds w ((w.start tag).run content).stop u := by
  obtain ⟨frame, s', hframe, ⟨v, hv, hlast⟩, hadds⟩ := w.opens_run tag content
  obtain rfl := h.unique hadds
  obtain ⟨table, hu⟩ := hclose v hv.inItem (congrArg LabelWriter.table hlast).symm
  have hstop : ((w.start tag).run content).stop = { v with table := table }.push u := by
    rw [hlast, ← hu, ← v.close_renumber none (tag.frame _), ← hframe, close_renumber]
    rfl
  have hboth := hv.trans (Adds.push { v with table := table } u)
  rwa [String.empty_append, ← hstop] at hboth

/-- What one block among others adds stands between what is added before and after it. -/
theorem adds_between (w : LabelWriter) (left right : EventForest) {inner : EventForest}
    (h : Adds (w.run left) (((w.run left).start tag).run inner).stop u) :
    ∃ s t, Adds w (w.run left) s ∧
      Adds w (w.run (left ++ .block tag inner right)) (s ++ u ++ t) := by
  obtain ⟨s, hleft⟩ := w.exists_adds left
  obtain ⟨t, hright⟩ := (((w.run left).start tag).run inner).stop.exists_adds right
  refine ⟨s, t, hleft, ?_⟩
  rw [run_append, run_block]
  exact (hleft.trans h).trans hright

end

end LabelWriter

end Markdown

end DotDiagram
