import DotDiagram.Proofs.Markdown.Node
import DotDiagram.Proofs.Markup.Table

/-! How labels are read. The bullet is the one entity that is given by its number; with
that put aside, a label is markup like any other, and what the writer wrote as a tree is
read as that tree. -/

namespace DotDiagram

namespace Markdown

def plainBullets : List Char → List Char
  | '&' :: '#' :: '8' :: '2' :: '2' :: '6' :: ';' :: cs => '•' :: plainBullets cs
  | c :: cs => c :: plainBullets cs
  | [] => []

/-- Properly nested markup with bullets, as a tree. -/
def readLabel? (label : String) : Option (List Markup.Item) :=
  Markup.read? (.ofList (plainBullets label.toList))

mutual

def Node.item : Node → Markup.Item
  | .said c | .own c => .char c
  | .bullet => .char '•'
  | .lineBreak => .void Markup.lineBreak
  | .element tag content => .element tag (items content)

def items : List Node → List Markup.Item
  | [] => []
  | node :: nodes => node.item :: items nodes

end

def Mark.piece : Mark → Markup.Piece
  | .said c | .own c => .char c
  | .bullet => .char '•'
  | .lineBreak => .void Markup.lineBreak
  | .opening tag => .opening tag
  | .closing name => .closing name

theorem items_append (nodes nodes' : List Node) :
    items (nodes ++ nodes') = items nodes ++ items nodes' := by
  induction nodes with
  | nil => rfl
  | cons node nodes ih => rw [List.cons_append, items, ih, items, List.cons_append]

mutual

theorem Node.pieces_item (node : Node) : node.item.pieces = node.marks.map Mark.piece := by
  cases node with
  | said c | own c | bullet | lineBreak => rfl
  | element tag content =>
    rw [Node.item, Markup.Item.pieces, pieces_items content, Node.marks, List.map_cons,
      List.map_append]
    rfl

theorem pieces_items (nodes : List Node) :
    Markup.pieces (items nodes) = (marks nodes).map Mark.piece := by
  cases nodes with
  | nil => rfl
  | cons node nodes =>
    rw [items, Markup.pieces, node.pieces_item, pieces_items nodes, marks, List.map_append]

end

theorem plainBullets_cons {c : Char} (h : c ≠ '&') (cs : List Char) :
    plainBullets (c :: cs) = c :: plainBullets cs := by
  rw [plainBullets]
  exact fun _ heq _ => h heq

theorem plainBullets_append {cs : List Char} (h : '&' ∉ cs) (rest : List Char) :
    plainBullets (cs ++ rest) = cs ++ plainBullets rest := by
  induction cs with
  | nil => rfl
  | cons c cs ih =>
    have hc : c ≠ '&' := fun heq => h (heq ▸ List.mem_cons_self)
    rw [List.cons_append, plainBullets_cons hc, ih fun hm => h (List.mem_cons_of_mem c hm),
      List.cons_append]

theorem plainBullets_escape (c : Char) (rest : List Char) :
    plainBullets (escapeMarkupChar c ++ rest) = escapeMarkupChar c ++ plainBullets rest := by
  rcases Markup.escapeMarkupChar_cases c with ⟨name, hname, hc⟩ | ⟨hamp, -, -, hc⟩
  · rw [hc]
    simp only [Markup.entities, List.mem_cons, List.not_mem_nil, or_false, Prod.mk.injEq] at hname
    rcases hname with ⟨rfl, -⟩ | ⟨rfl, -⟩ | ⟨rfl, -⟩ | ⟨rfl, -⟩ | ⟨rfl, -⟩ <;> rfl
  · rw [hc]
    exact plainBullets_cons hamp rest

namespace Mark.Proper

variable {mark : Mark}

/-- Signs and tags of the writer have no ampersand, and its signs need no escaping. -/
theorem chars_cases (h : mark.Proper) :
    (∃ c, mark = .said c) ∨ mark = .bullet ∨ '&' ∉ mark.chars ∧ mark.chars = mark.piece.chars := by
  cases mark with
  | said c => exact .inl ⟨c, rfl⟩
  | bullet => exact .inr (.inl rfl)
  | own c =>
    have hsigns : ∀ entry ∈ Markup.entities, isSign entry.2 = false := by decide
    have hsign : isSign c = true := h
    rcases Markup.escapeMarkupChar_cases c with ⟨name, hname, -⟩ | ⟨hamp, -, -, hesc⟩
    · rw [hsigns _ hname] at hsign
      cases hsign
    · exact .inr (.inr ⟨by simpa [Mark.chars] using hamp.symm, hesc.symm⟩)
  | lineBreak => exact .inr (.inr (by decide))
  | opening tag =>
    have htags : ∀ tag ∈ writerTags, '&' ∉ (opening tag).chars := by decide
    exact .inr (.inr ⟨htags tag h, rfl⟩)
  | closing name =>
    have hnames : ∀ name ∈ writerTags.map Markup.Tag.name, '&' ∉ (closing name).chars := by decide
    exact .inr (.inr ⟨hnames name h, rfl⟩)

theorem plainBullets (h : mark.Proper) (rest : List Char) :
    plainBullets (mark.chars ++ rest) = mark.piece.chars ++ plainBullets rest := by
  rcases h.chars_cases with ⟨c, rfl⟩ | rfl | ⟨hamp, hchars⟩
  · exact plainBullets_escape c rest
  · rfl
  · rw [← hchars]
    exact plainBullets_append hamp rest

theorem legible (h : mark.Proper) : mark.piece.Legible := by
  cases mark with
  | said c | own c | bullet => trivial
  | lineBreak => exact (by decide : Markup.lineBreak.Legible)
  | opening tag =>
    have htags : ∀ tag ∈ writerTags, tag.Legible := by decide
    exact htags tag h
  | closing name =>
    have hnames : ∀ name ∈ writerTags.map Markup.Tag.name, Markup.TagName name := by decide
    exact hnames name h

theorem balanced (h : mark.Proper) : Dot.AngleBalanced mark.chars := by
  rcases h.chars_cases with ⟨c, rfl⟩ | rfl | ⟨-, hchars⟩
  · exact h.legible.balanced
  · exact .of_not_mem (by decide) (by decide)
  · rw [hchars]
    exact h.legible.balanced

end Mark.Proper

namespace Proper

variable {nodes : List Node}

theorem legible (h : Proper nodes) : Markup.Legible (items nodes) := by
  intro piece hp
  rw [pieces_items] at hp
  obtain ⟨mark, hm, rfl⟩ := List.mem_map.mp hp
  exact (h mark hm).legible

theorem balanced (h : Proper nodes) : Dot.AngleBalanced (text nodes).toList := by
  rw [toList_text]
  exact .flatMap fun mark hm => (h mark hm).balanced

theorem plainBullets_text (h : Proper nodes) :
    plainBullets (text nodes).toList = (Markup.write (items nodes)).toList := by
  have hmarks : ∀ ms : List Mark, (∀ mark ∈ ms, mark.Proper) →
      plainBullets (ms.flatMap Mark.chars) = (ms.map Mark.piece).flatMap Markup.Piece.chars := by
    intro ms hms
    induction ms with
    | nil => rfl
    | cons mark ms ih =>
      rw [List.flatMap_cons, (hms mark List.mem_cons_self).plainBullets,
        ih fun m hm => hms m (List.mem_cons_of_mem mark hm), List.map_cons, List.flatMap_cons]
  rw [toList_text, hmarks _ h, Markup.toList_write, pieces_items]

/-- A tree of the writer's is read as it was meant. -/
theorem read (h : Proper nodes) : readLabel? (text nodes) = some (items nodes) := by
  rw [readLabel?, h.plainBullets_text, String.ofList_toList]
  exact Markup.read?_write h.legible

end Proper

end Markdown

end DotDiagram
