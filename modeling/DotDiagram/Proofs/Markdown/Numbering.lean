import DotDiagram.Markdown
import DotDiagram.Proofs.Markdown.EventForest

/-! The numbers of list items. Each open list knows the number that comes next in it, and
an item takes that of the innermost list. If items start directly in lists, a list moves on
by just its own items. -/

namespace DotDiagram

namespace Markdown

/-- The marker of an item that comes after so many others in its list. -/
def itemMarker (first : Option Nat) (earlier : Nat) : String :=
  match first with
  | some n => toString (n + earlier) ++ ". "
  | none => bullet

def Frame.number? : Frame → Option (Option Nat)
  | .list next => some next
  | _ => none

theorem Frame.number?_cases (frame : Frame) :
    (∃ next, frame = .list next) ∨ frame.number? = none := by
  cases frame with
  | list next => exact .inl ⟨next, rfl⟩
  | _ => exact .inr rfl

theorem Frame.isSome_number?_renumber (next : Option Nat) (frame : Frame) :
    (frame.renumber next).number?.isSome = frame.number?.isSome := by
  cases frame <;> rfl

/-- The numbers after some more items of the innermost list. -/
def moveOn (items : Nat) (numbers : List (Option Nat)) : List (Option Nat) :=
  numbers.modifyHead fun next => next.map (· + items)

theorem moveOn_zero (numbers : List (Option Nat)) : moveOn 0 numbers = numbers := by
  cases numbers <;> simp [moveOn]

theorem moveOn_moveOn (items items' : Nat) (numbers : List (Option Nat)) :
    moveOn items' (moveOn items numbers) = moveOn (items + items') numbers := by
  cases numbers <;> simp [moveOn, Function.comp_def, Nat.add_assoc]

theorem itemMarker_map (first : Option Nat) (earlier : Nat) :
    itemMarker (first.map (· + earlier)) 0 = itemMarker first earlier := by
  cases first <;> rfl

namespace LabelWriter

/-- The numbers that come next in the open lists, innermost first. -/
def numbers (w : LabelWriter) : List (Option Nat) :=
  w.frames.filterMap fun block => block.1.number?

section

variable {w : LabelWriter} {frame : Frame}

theorem numbers_push (w : LabelWriter) (s : String) : (w.push s).numbers = w.numbers := by
  obtain ⟨written, frames, table⟩ := w
  cases frames <;> rfl

theorem numbers_block (frame : Frame) (s : String) (w : LabelWriter) :
    numbers { w with frames := (frame, s) :: w.frames } = frame.number?.toList ++ w.numbers := by
  cases h : frame.number? <;> simp [numbers, h]

theorem numbers_close (w : LabelWriter) (frame : Frame) (s : String) :
    (w.close frame s).numbers = w.numbers := by
  obtain ⟨table, u, hu⟩ := w.close_eq_push frame s
  rw [hu, numbers_push]
  rfl

theorem takeMarker_list (next : Option Nat) (s : String) (frames : List (Frame × String)) :
    takeMarker ((.list next, s) :: frames) =
      (itemMarker next 0, (.list (next.map (· + 1)), s) :: frames) := by
  cases next <;> rfl

theorem takeMarker_other (h : frame.number? = none) (s : String)
    (frames : List (Frame × String)) :
    takeMarker ((frame, s) :: frames) =
      ((takeMarker frames).1, (frame, s) :: (takeMarker frames).2) := by
  cases frame with
  | list next => cases h
  | _ => rfl

/-- The innermost list gives the marker and moves on. -/
theorem takeMarker_numbers (w : LabelWriter) :
    numbers { w with frames := (takeMarker w.frames).2 } = moveOn 1 w.numbers ∧
      ∀ next others, w.numbers = next :: others → (takeMarker w.frames).1 = itemMarker next 0 := by
  obtain ⟨written, frames, table⟩ := w
  induction frames with
  | nil => exact ⟨rfl, nofun⟩
  | cons block frames ih =>
    obtain ⟨frame, s⟩ := block
    have hall := numbers_block frame s ⟨written, frames, table⟩
    rcases frame.number?_cases with ⟨next, rfl⟩ | hnone
    · rw [hall]
      refine ⟨?_, fun next' others h => ?_⟩
      · simp only [takeMarker_list]
        exact numbers_block _ s ⟨written, frames, table⟩
      · cases h
        rw [takeMarker_list]
    · rw [hall, hnone]
      simp only [takeMarker_other hnone]
      have hrest := numbers_block frame s ⟨written, (takeMarker frames).2, table⟩
      rw [hnone] at hrest
      exact ⟨hrest.trans ih.1, ih.2⟩

/-- An item moves the list on that it starts in, and no other block does. -/
theorem numbers_start (w : LabelWriter) (tag : Tag) :
    (w.start tag).numbers = (tag.frame (takeMarker w.frames).1).number?.toList ++
      moveOn (if tag = .item then 1 else 0) w.numbers := by
  by_cases htag : tag = .item
  · rw [htag]
    exact w.takeMarker_numbers.1
  · rw [if_neg htag, moveOn_zero]
    cases tag with
    | item => exact absurd rfl htag
    | _ => exact numbers_block _ "" w

theorem isSome_number?_frame (marker : String) (tag : Tag) :
    (tag.frame marker).number?.isSome = tag.isList := by
  cases tag <;> rfl

/-- A stream with all items in place moves on the innermost list by those of its items that
stand in no list of the stream. -/
theorem numbers_run (w : LabelWriter) (f : EventForest) {inList : Bool}
    (h : f.itemsListed inList = true) : (w.run f).numbers = moveOn (f.count .item) w.numbers := by
  induction f generalizing w inList with
  | nil => exact (moveOn_zero _).symm
  | single e plain rest ih =>
    rw [run_single, ih _ h, event_eq_push plain, numbers_push, EventForest.count]
  | block tag content rest ihc ihr =>
    simp only [EventForest.itemsListed, Bool.and_eq_true] at h
    obtain ⟨⟨-, hcontent⟩, hrest⟩ := h
    obtain ⟨frame, s, hframe, ⟨v, -, hlast⟩, -⟩ := w.opens_run tag content
    have hkind : frame.number?.isSome = tag.isList := by
      rw [← frame.isSome_number?_renumber none, hframe, Frame.isSome_number?_renumber,
        isSome_number?_frame]
    have hinside := ihc (w.start tag) hcontent
    rw [hlast, numbers_start, numbers_block] at hinside
    -- The numbers further out are the same before the block stops and after it started.
    have hout : v.numbers = moveOn (if tag = .item then 1 else 0) w.numbers := by
      have hkind' := isSome_number?_frame (takeMarker w.frames).1 tag
      cases hlist : tag.isList with
      | false =>
        rw [hlist] at hkind hkind' hcontent
        rw [Option.isSome_eq_false_iff, Option.isNone_iff_eq_none] at hkind hkind'
        rwa [hkind, hkind', EventForest.count_item_eq_zero hcontent, moveOn_zero] at hinside
      | true =>
        rw [hlist] at hkind hkind'
        obtain ⟨next, hnext⟩ := Option.isSome_iff_exists.mp hkind
        obtain ⟨next', hnext'⟩ := Option.isSome_iff_exists.mp hkind'
        rw [hnext, hnext'] at hinside
        exact (List.cons.inj hinside).2
    have hstop : ((w.start tag).run content).stop.numbers = v.numbers := by
      rw [hlast]
      exact v.numbers_close frame s
    rw [run_block, ihr _ hrest, hstop, hout, moveOn_moveOn, EventForest.count]
    split <;> simp [Nat.add_comm]

/-- What a list hands over, from what was written in it. -/
def listed (inItem : Bool) (rows : String) : String :=
  if inItem then listTable rows else nestedRow (listTable rows)

/-- The marker of an item is the number that comes next in its list. -/
theorem opens_item (inner : EventForest) {next : Option Nat} {others : List (Option Nat)}
    (h : w.numbers = next :: others) :
    ∃ text, Opens w ((w.start .item).run inner) (.item (itemMarker next 0)) text ∧
      Adds w ((w.start .item).run inner).stop (leftRow (itemMarker next 0 ++ text)) := by
  obtain ⟨frame, text, hframe, hopens, hadds⟩ := w.opens_run .item inner
  have hmarker := w.takeMarker_numbers.2 next others h
  have hitem : frame = .item (itemMarker next 0) := by
    rw [Tag.frame, hmarker] at hframe
    cases frame <;> cases hframe
    rfl
  refine ⟨text, hitem ▸ hopens, adds_stop hadds fun v _ _ => ⟨v.table, ?_⟩⟩
  rw [hmarker]
  rfl

/-- `before` and `after` are the events around the list, `left` and `right` what stands in it
around the item. The item has its marker when it is about to stop, with `text` in it, and so
it stands among the rows of the list. -/
theorem items_numbered {stream left inner right : EventForest} {first : Option Nat}
    {before after : List Event} (placed : stream.itemsListed false = true)
    (occurs : EventForest.Occurs (.list first) (left ++ .block .item inner right) stream
      before after) :
    let around := before.foldl event .empty
    let begun := (around.start (.list first)).run left
    let marker := itemMarker first (left.count .item)
    stream.events = before ++ .start (.list first) :: (left.events ++ .start .item ::
        (inner.events ++ .stop :: (right.events ++ .stop :: after))) ∧
      ∃ s text t, Adds (around.start (.list first)) begun s ∧
        Opens begun ((begun.start .item).run inner) (.item marker) text ∧
        Adds around ((around.start (.list first)).run (left ++ .block .item inner right)).stop
          (listed around.inItem (s ++ leftRow (marker ++ text) ++ t)) := by
  intro around begun marker
  have hcontent := occurs.itemsListed placed
  have hleft : left.itemsListed true = true := by
    rw [EventForest.itemsListed_append, Bool.and_eq_true] at hcontent
    exact hcontent.1
  have hnumbers : begun.numbers = first.map (· + left.count .item) :: around.numbers := by
    have hbegun := numbers_run (around.start (.list first)) left hleft
    rw [numbers_start, if_neg nofun, moveOn_zero] at hbegun
    exact hbegun
  have hitem := opens_item inner hnumbers
  rw [itemMarker_map] at hitem
  obtain ⟨text, hopens, hrow⟩ := hitem
  obtain ⟨s, t, hs, hrows⟩ := (around.start (.list first)).adds_between left right hrow
  refine ⟨?_, s, text, t, hs, hopens, adds_stop hrows fun v hv _ => ⟨v.table, ?_⟩⟩
  · rw [occurs.events_eq, EventForest.events_append, List.append_assoc]
    simp [EventForest.events]
  · rw [← hv]
    rfl

end

/-- The item `a` of a list, with a list of its own. -/
def nestingItem : EventForest :=
  .block .item (.single (.text "a") rfl (.block (.list none)
    (.block .item (.single (.text "b") rfl .nil) .nil) .nil)) .nil

/-- A bullet list, and a list that begins with 3. -/
def twoLists : EventForest :=
  .block (.list none) (.block .item (.single (.text "z") rfl .nil) .nil)
    (.block (.list (some 3))
      (nestingItem ++ .block .item (.single (.text "c") rfl .nil) .nil) .nil)

theorem twoLists_numbered :
    twoLists.events = Markdown.events "- z\n\n3. a\n   - b\n4. c" ∧
      twoLists.itemsListed false = true ∧
      ∃ before after, EventForest.Occurs (.list (some 3))
          (nestingItem ++ .block .item (.single (.text "c") rfl .nil) .nil) twoLists before after ∧
        let begun := ((before.foldl event .empty).start (.list (some 3))).run nestingItem
        ∃ text, Opens begun ((begun.start .item).run (.single (.text "c") rfl .nil))
          (.item "4. ") text := by
  have placed : twoLists.itemsListed false = true := rfl
  have occurs : EventForest.Occurs (.list (some 3))
      (nestingItem ++ .block .item (.single (.text "c") rfl .nil) .nil) twoLists _ _ :=
    .afterBlock _ (.here .nil)
  obtain ⟨-, s, text, t, -, hopens, -⟩ := items_numbered placed occurs
  exact ⟨by decide +kernel, placed, _, _, occurs, text, hopens⟩

end LabelWriter

end Markdown

end DotDiagram
