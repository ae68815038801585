import DotDiagram.ClassDiagram.Reader

/-! Reading a diagram item by item. -/

namespace DotDiagram.ClassDiagram

variable {cs rest : List Char}

theorem items_of_item? {item : Item} (h : item? cs = some (item, rest)) :
    items cs = (item :: (items rest).1, (items rest).2) := by
  rw [items]
  split
  · next hn =>
    rw [h] at hn
    cases hn
  · next item' rest' hs =>
    rw [h, Option.some.injEq, Prod.mk.injEq] at hs
    obtain ⟨rfl, rfl⟩ := hs
    rfl

theorem items_of_none (h : item? cs = none) : items cs = ([], cs) := by
  rw [items]
  split
  · rfl
  · next hs =>
    rw [h] at hs
    cases hs

theorem items_nil : items [] = ([], []) := items_of_none rfl

theorem ofText_of_items {text : String} {read : List Item} (h : items text.toList = (read, [])) :
    ofText text = .ok (ofItems read) := by
  simp only [ofText, h]
  rfl

theorem ofText_ofList (cs : List Char) :
    ofText (String.ofList cs) =
      if trim (items cs).2 = [] then .ok (ofItems (items cs).1)
      else .error (.unexpected (complaint (items cs).2)) := by
  simp only [ofText, String.toList_ofList, List.isEmpty_iff]

/-- What a text says, if it is accepted. -/
def diagram? (cs : List Char) : Option ClassDiagram := (ofText (String.ofList cs)).toOption

theorem diagram?_nil : diagram? [] = some ⟨[], []⟩ := by
  rw [diagram?, ofText_ofList, items_nil]
  rfl

end DotDiagram.ClassDiagram
