import DotDiagram.Markdown
import DotDiagram.Proofs.Markdown.EventForest

/-! Documents. Blocks stand in the document, in quotes and in the items of lists, and text
and spans in blocks. No more is known of a reader of Markdown than that it turns every text
into the events of such a tree. -/

namespace DotDiagram

namespace Markdown

/-- Where an event stands: among the blocks of the document or of a quote, in an item, in a
list, in a table, in a row of one, in text, or in code or HTML. -/
inductive Setting where
  | flow | item | list | table | row | spans | raw
  deriving DecidableEq

def Tag.isSpan : Tag → Bool
  | .emphasis | .strong | .strikethrough | .link | .image => true
  | _ => false

/-- A block that needs no list or table around it. -/
def Tag.isBlock : Tag → Bool
  | .paragraph | .heading _ | .list _ | .codeBlock | .quote | .table _ | .htmlBlock => true
  | _ => false

def Event.isInline : Event → Bool
  | .text _ | .code _ | .html _ | .softBreak | .hardBreak | .taskMarker _ => true
  | _ => false

/-- Where the content of a block or a span stands. -/
def Tag.inside : Tag → Setting
  | .quote => .flow
  | .item => .item
  | .list _ => .list
  | .table _ => .table
  | .tableHead | .tableRow => .row
  | .codeBlock | .htmlBlock | .other => .raw
  | _ => .spans

/-- The paragraphs of a tight list are not marked as such, so that their text stands directly
in the items. -/
def Setting.admits : Setting → Tag → Bool
  | .flow, tag => tag.isBlock
  | .item, tag => tag.isBlock || tag.isSpan
  | .list, tag => tag == .item
  | .table, tag => tag == .tableHead || tag == .tableRow
  | .row, tag => tag == .tableCell
  | .spans, tag => tag.isSpan
  | .raw, _ => false

def Setting.says : Setting → Event → Bool
  | .flow, e => e == .rule
  | .item, e => e == .rule || e.isInline
  | .spans, e => e.isInline
  | .raw, .text _ | .raw, .html _ => true
  | _, _ => false

/-- The places with regard to tables that a setting can have: spans stand in cells and
elsewhere. -/
def Setting.reaches : Setting → TablePlace → Bool
  | .table, place => place == .table
  | .row, place => place == .row
  | .spans, place => place == .outside || place == .inside
  | _, place => place == .outside

namespace EventForest

/-- At any depth, everything stands where its kind may stand. -/
def standsIn (s : Setting) : EventForest → Bool
  | nil => true
  | single e _ rest => s.says e && rest.standsIn s
  | block tag content rest =>
    s.admits tag && content.standsIn tag.inside && rest.standsIn s

variable {f g content : EventForest} {s : Setting} {tag : Tag}

theorem standsIn_single {e : Event} {plain : e.isPlain = true} :
    (single e plain f).standsIn s = true ↔ s.says e = true ∧ f.standsIn s = true := by
  rw [standsIn, Bool.and_eq_true]

theorem standsIn_block : (block tag content f).standsIn s = true ↔
    s.admits tag = true ∧ content.standsIn tag.inside = true ∧ f.standsIn s = true := by
  rw [standsIn, Bool.and_eq_true, Bool.and_eq_true, and_assoc]

theorem standsIn_append : (f ++ g).standsIn s = (f.standsIn s && g.standsIn s) := by
  induction f with
  | nil => rfl
  | single e plain rest ih => simp [standsIn, ih, Bool.and_assoc]
  | block tag content rest _ ih => simp [standsIn, ih, Bool.and_assoc]

/-- The stop of the block around a stream shows where the stream ends. -/
theorem events_append_inj {after after' : List Event}
    (h : f.events ++ .stop :: after = g.events ++ .stop :: after') : f = g ∧ after = after' := by
  induction f generalizing g after after' with
  | nil =>
    cases g with
    | nil => exact ⟨rfl, (List.cons.inj h).2⟩
    | single e plain rest =>
      cases (List.cons.inj h).1
      cases plain
    | block => cases (List.cons.inj h).1
  | single e plain rest ih =>
    cases g with
    | nil =>
      cases (List.cons.inj h).1
      cases plain
    | single e' plain' rest' =>
      obtain ⟨rfl, hrest⟩ := List.cons.inj h
      obtain ⟨rfl, rfl⟩ := ih hrest
      exact ⟨rfl, rfl⟩
    | block =>
      cases (List.cons.inj h).1
      cases plain
  | block tag content rest ihc ihr =>
    cases g with
    | nil => cases (List.cons.inj h).1
    | single e plain rest =>
      cases (List.cons.inj h).1
      cases plain
    | block tag' content' rest' =>
      simp only [events, List.cons_append, List.append_assoc] at h
      obtain ⟨htag, hinner⟩ := List.cons.inj h
      cases htag
      obtain ⟨rfl, hrest⟩ := ihc hinner
      obtain ⟨rfl, rfl⟩ := ihr hrest
      exact ⟨rfl, rfl⟩

/-- A stream is that of one forest only. -/
theorem events_inj (h : f.events = g.events) : f = g := by
  have hstopped : f.events ++ [.stop] = g.events ++ [.stop] := by rw [h]
  exact (events_append_inj hstopped).1

theorem within_admitted {place : TablePlace} (htag : s.admits tag = true)
    (hplace : s.reaches place = true) :
    (s == .list || tag != .item) = true ∧ (tag.inside == .list) = tag.isList ∧
      ∃ inner, place.within? tag = some inner ∧ tag.inside.reaches inner = true := by
  cases s <;> cases tag <;> first
    | cases htag; done
    | cases place <;> first
      | cases hplace; done
      | exact ⟨rfl, rfl, _, rfl, rfl⟩

/-- In a document items stand directly in lists, and tables are not nested. -/
theorem listed_of_standsIn {place : TablePlace} (hf : f.standsIn s = true)
    (hplace : s.reaches place = true) :
    f.itemsListed (s == .list) = true ∧ f.tablesPlaced place = true := by
  induction f generalizing s place with
  | nil => exact ⟨rfl, rfl⟩
  | single e plain rest ih =>
    exact ih (standsIn_single.mp hf).2 hplace
  | block tag content rest ihc ihr =>
    obtain ⟨htag, hcontent, hrest⟩ := standsIn_block.mp hf
    obtain ⟨hitem, hlist, inner, hinner, hreach⟩ := within_admitted htag hplace
    obtain ⟨hitems, htables⟩ := ihc hcontent hreach
    obtain ⟨hitems', htables'⟩ := ihr hrest hplace
    rw [hlist] at hitems
    refine ⟨?_, ?_⟩
    · rw [itemsListed, hitem, hitems, hitems']
      rfl
    · rw [tablesPlaced, hinner, Option.any_some, htables, htables']
      rfl

end EventForest

/-- What is known of a reader of Markdown: every block that it starts also stops, and each
stands where its kind may stand. -/
structure ReadsDocuments (parse : String → List Event) : Prop where
  nested (text : String) : ∃ f : EventForest, f.events = parse text
  arranged {text : String} {f : EventForest} (h : f.events = parse text) :
    f.standsIn .flow = true

/-- Events of a tree in which everything is in place. -/
def Arranged (s : Setting) (es : List Event) : Prop :=
  ∃ f : EventForest, f.events = es ∧ f.standsIn s = true

theorem readsDocuments_iff {parse : String → List Event} :
    ReadsDocuments parse ↔ ∀ text, Arranged .flow (parse text) := by
  constructor
  · intro h text
    obtain ⟨f, hf⟩ := h.nested text
    exact ⟨f, hf, h.arranged hf⟩
  · intro h
    refine ⟨fun text => ?_, fun {text f} hf => ?_⟩
    · obtain ⟨g, hg, -⟩ := h text
      exact ⟨g, hg⟩
    · obtain ⟨g, hg, hstands⟩ := h text
      rwa [EventForest.events_inj (hf.trans hg.symm)]

/-- The streams of a reader are as the numbers of lists and the columns of tables need them. -/
theorem ReadsDocuments.listed {parse : String → List Event} (h : ReadsDocuments parse)
    {text : String} {f : EventForest} (hf : f.events = parse text) :
    f.itemsListed false = true ∧ f.tablesPlaced .outside = true :=
  EventForest.listed_of_standsIn (h.arranged hf) rfl

/-! ### The library's own reader -/

namespace Arranged

variable {s : Setting} {es es' : List Event}

theorem nil : Arranged s [] := ⟨.nil, rfl, rfl⟩

theorem single {e : Event} (plain : e.isPlain = true) (he : s.says e = true) : Arranged s [e] :=
  ⟨.single e plain .nil, rfl, EventForest.standsIn_single.mpr ⟨he, rfl⟩⟩

theorem append (h : Arranged s es) (h' : Arranged s es') : Arranged s (es ++ es') := by
  obtain ⟨f, rfl, hf⟩ := h
  obtain ⟨g, rfl, hg⟩ := h'
  refine ⟨f ++ g, f.events_append g, ?_⟩
  rw [EventForest.standsIn_append, hf, hg]
  rfl

theorem block {tag : Tag} (htag : s.admits tag = true) (h : Arranged tag.inside es) :
    Arranged s (.start tag :: (es ++ [.stop])) := by
  obtain ⟨f, rfl, hf⟩ := h
  exact ⟨.block tag f .nil, rfl, EventForest.standsIn_block.mpr ⟨htag, hf, rfl⟩⟩

theorem flatMap {α : Type} {g : α → List Event} {xs : List α}
    (h : ∀ x ∈ xs, Arranged s (g x)) : Arranged s (xs.flatMap g) := by
  induction xs with
  | nil => exact nil
  | cons x xs ih =>
    rw [List.flatMap_cons]
    exact (h x List.mem_cons_self).append (ih fun y hy => h y (List.mem_cons_of_mem x hy))

end Arranged

mutual

theorem Inline.arranged (x : Inline) {s : Setting} (hs : s = .spans ∨ s = .item) :
    Arranged s x.events := by
  cases x with
  | text _ | code _ | html _ | softBreak | hardBreak =>
    rcases hs with rfl | rfl <;> exact .single rfl rfl
  | span kind content =>
    have hcontent : Arranged kind.tag.inside (inlineEvents content) := by
      have hspans := inlines_arranged content (.inl rfl : Setting.spans = .spans ∨ _)
      cases kind <;> exact hspans
    have htag : s.admits kind.tag = true := by
      rcases hs with rfl | rfl <;> cases kind <;> rfl
    exact .block htag hcontent

theorem inlines_arranged (xs : List Inline) {s : Setting} (hs : s = .spans ∨ s = .item) :
    Arranged s (inlineEvents xs) := by
  cases xs with
  | nil => exact .nil
  | cons x xs =>
    rw [inlineEvents]
    exact (x.arranged hs).append (inlines_arranged xs hs)

end

section

variable (known : List (List Char))

theorem row_arranged {tag : Tag} (htag : tag = .tableHead ∨ tag = .tableRow) (row : List Source) :
    Arranged .table (rowEvents known tag row) := by
  have hcell (cell : Source) : Arranged .row (cellEvents known cell) :=
    .block rfl (inlines_arranged (cell.inlines known) (.inl rfl))
  have hcells : Arranged .row (row.flatMap (cellEvents known)) := .flatMap fun cell _ => hcell cell
  rcases htag with rfl | rfl
  · exact .block rfl hcells
  · exact .block rfl hcells

mutual

/-- Only in the items of tight lists are paragraphs not marked. -/
theorem Block.arranged (block : Block) {s : Setting} {tight : Bool}
    (hs : s = .item ∨ s = .flow ∧ tight = false) : Arranged s (block.events known tight) := by
  have hinlines (content : Source) : Arranged .spans (inlineEvents (content.inlines known)) :=
    inlines_arranged (content.inlines known) (.inl rfl)
  have hadmits {tag : Tag} (htag : tag.isBlock = true) : s.admits tag = true := by
    rcases hs with rfl | ⟨rfl, -⟩
    · exact Bool.or_eq_true_iff.mpr (.inl htag)
    · exact htag
  cases block with
  | paragraph content =>
    rw [Block.events]
    split
    · next ht =>
      rcases hs with rfl | ⟨-, hloose⟩
      · exact inlines_arranged (content.inlines known) (.inr rfl)
      · cases ht.symm.trans hloose
    · exact .block (hadmits rfl) (hinlines content)
  | heading level content => exact .block (hadmits rfl) (hinlines content)
  | code text | html text => exact .block (hadmits rfl) (.single rfl rfl)
  | rule => rcases hs with rfl | ⟨rfl, -⟩ <;> exact .single rfl rfl
  | quote blocks => exact .block (hadmits rfl) (blocks_arranged blocks (.inr ⟨rfl, rfl⟩))
  | list first tight items => exact .block (hadmits rfl) (items_arranged items tight)
  | table alignments head rows =>
    have hhead := row_arranged known (.inl rfl) head
    have hrows : Arranged .table (rows.flatMap (rowEvents known .tableRow)) :=
      .flatMap fun row _ => row_arranged known (.inr rfl) row
    exact .block (hadmits rfl) (hhead.append hrows)

theorem blocks_arranged (blocks : List Block) {s : Setting} {tight : Bool}
    (hs : s = .item ∨ s = .flow ∧ tight = false) : Arranged s (blockEvents known tight blocks) := by
  cases blocks with
  | nil => exact .nil
  | cons block blocks =>
    rw [blockEvents]
    exact (Block.arranged block hs).append (blocks_arranged blocks hs)

theorem Item.arranged (item : Item) (tight : Bool) :
    Arranged .list (item.events known tight) := by
  obtain ⟨task, blocks⟩ := item
  have htask : Arranged .item (task.map Event.taskMarker).toList := by
    cases task with
    | none => exact .nil
    | some checked => exact .single rfl rfl
  exact .block rfl (htask.append (blocks_arranged blocks (.inl rfl)))

theorem items_arranged (items : List Item) (tight : Bool) :
    Arranged .list (itemEvents known tight items) := by
  cases items with
  | nil => exact .nil
  | cons item items =>
    rw [itemEvents]
    exact (Item.arranged item tight).append (items_arranged items tight)

end

end

/-- The library's own reader turns texts into documents. -/
theorem readsDocuments_events : ReadsDocuments events :=
  readsDocuments_iff.mpr fun text =>
    blocks_arranged (blocks text).2 (blocks text).1 (.inr ⟨rfl, rfl⟩)

end Markdown

end DotDiagram
