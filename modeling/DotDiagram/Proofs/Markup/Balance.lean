import DotDiagram.Proofs.Dot.Legible
import DotDiagram.Proofs.Markup.Tree

/-! Angle brackets in markup. Each tag closes its own bracket and escaped text has none, so
markup can be quoted between brackets whatever is in it. -/

namespace DotDiagram

namespace Dot

namespace AngleBalanced

variable {cs ds : List Char}

theorem nil : AngleBalanced [] := by decide

theorem count_take_le (h : AngleBalanced cs) (n : Nat) :
    (cs.take n).count '>' ≤ (cs.take n).count '<' := by
  by_cases hn : n ≤ cs.length
  · exact h.1 n hn
  · rw [List.take_of_length_le (Nat.le_of_not_le hn)]
    exact Nat.le_of_eq h.2.symm

theorem append (h : AngleBalanced cs) (h' : AngleBalanced ds) : AngleBalanced (cs ++ ds) := by
  constructor
  · intro n _
    have hc := h.count_take_le n
    have hd := h'.count_take_le (n - cs.length)
    rw [List.take_append, List.count_append, List.count_append]
    omega
  · rw [List.count_append, List.count_append, h.2, h'.2]

theorem flatMap {α : Type} {f : α → List Char} {xs : List α}
    (h : ∀ x ∈ xs, AngleBalanced (f x)) : AngleBalanced (xs.flatMap f) := by
  induction xs with
  | nil => exact nil
  | cons x xs ih =>
    exact (h x List.mem_cons_self).append (ih fun y hy => h y (List.mem_cons_of_mem x hy))

theorem of_not_mem (ho : '<' ∉ cs) (hc : '>' ∉ cs) : AngleBalanced cs := by
  constructor
  · intro n _
    rw [List.count_eq_zero_of_not_mem fun h => hc (List.mem_of_mem_take h)]
    exact Nat.zero_le _
  · rw [List.count_eq_zero_of_not_mem ho, List.count_eq_zero_of_not_mem hc]

/-- The bracket at the front pays for the one at the end. -/
theorem enclose (ho : '<' ∉ cs) (hc : '>' ∉ cs) : AngleBalanced ('<' :: (cs ++ ['>'])) := by
  have hclose : (cs ++ ['>']).count '>' = 1 := by simp [List.count_eq_zero_of_not_mem hc]
  have hopen : (cs ++ ['>']).count '<' = 0 := by simp [List.count_eq_zero_of_not_mem ho]
  constructor
  · intro n _
    cases n with
    | zero => exact Nat.zero_le _
    | succ n =>
      have hle := ((cs ++ ['>']).take_sublist n).count_le '>'
      rw [List.take_succ_cons, List.count_cons_self, List.count_cons_of_ne (by decide)]
      omega
  · rw [List.count_cons_self, List.count_cons_of_ne (by decide), hopen, hclose]

end AngleBalanced

end Dot

namespace Markup

theorem not_mem_escapeMarkupChar {c d : Char} (hd : d = '<' ∨ d = '>') :
    d ∉ escapeMarkupChar c := by
  rcases escapeMarkupChar_cases c with ⟨name, hname, hc⟩ | ⟨-, hlt, hgt, hc⟩
  · have hfree : ∀ entry ∈ entities, '<' ∉ '&' :: entry.1.toList ∧ '>' ∉ '&' :: entry.1.toList := by
      decide
    rw [hc]
    rcases hd with rfl | rfl
    · exact (hfree _ hname).1
    · exact (hfree _ hname).2
  · rw [hc, List.mem_singleton]
    rintro rfl
    rcases hd with hd | hd
    · exact hlt hd
    · exact hgt hd

theorem TagName.not_mem {name : String} (h : TagName name) {c : Char}
    (hc : isTagLetter c = false) : c ∉ name.toList := by
  intro hm
  rw [h.letters c hm] at hc
  cases hc

theorem Tag.Legible.not_mem {tag : Tag} (h : tag.Legible) {c : Char}
    (hc : c = '<' ∨ c = '>') : c ∉ tag.chars := by
  have hletter : isTagLetter c = false := by rcases hc with rfl | rfl <;> decide
  have hvalue : isValueLetter c = false := by rcases hc with rfl | rfl <;> decide
  have hsigns : c ∉ [' ', '=', '"'] := by rcases hc with rfl | rfl <;> decide
  intro hm
  rcases List.mem_append.mp hm with hm | hm
  · exact h.name.not_mem hletter hm
  · obtain ⟨attr, hattr, hm⟩ := List.mem_flatMap.mp hm
    obtain ⟨hname, hvalues⟩ := h.attrs attr hattr
    have hnot := hname.not_mem hletter
    have hnot' : c ∉ attr.2.toList := fun hm' => by simp [hvalues c hm'] at hvalue
    simp_all [attrChars]

theorem Piece.Legible.balanced {p : Piece} (h : p.Legible) : Dot.AngleBalanced p.chars := by
  cases p with
  | char c =>
    exact .of_not_mem (not_mem_escapeMarkupChar (.inl rfl)) (not_mem_escapeMarkupChar (.inr rfl))
  | opening tag => exact .enclose (h.not_mem (.inl rfl)) (h.not_mem (.inr rfl))
  | closing name =>
    have ho : '<' ∉ '/' :: name.toList := by
      simp [TagName.not_mem h (by decide : isTagLetter '<' = false)]
    have hc : '>' ∉ '/' :: name.toList := by
      simp [TagName.not_mem h (by decide : isTagLetter '>' = false)]
    exact .enclose ho hc
  | void tag =>
    have ho : '<' ∉ tag.chars ++ ['/'] := by simp [Tag.Legible.not_mem h (.inl rfl)]
    have hc : '>' ∉ tag.chars ++ ['/'] := by simp [Tag.Legible.not_mem h (.inr rfl)]
    simpa [Piece.chars] using Dot.AngleBalanced.enclose ho hc

theorem Legible.balanced {items : List Item} (h : Legible items) :
    Dot.AngleBalanced (write items).toList := by
  rw [write, String.toList_ofList]
  exact .flatMap fun p hp => (h p hp).balanced

end Markup

end DotDiagram
