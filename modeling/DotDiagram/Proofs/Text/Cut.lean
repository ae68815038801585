import DotDiagram.Proofs.Text.Following

/-! Texts cut short. What is read from a text is read from it also when the text ends where
reading stopped. -/

namespace DotDiagram

variable {p : Char → Bool} {a b : Char} {word text cs rest tail left : List Char}

/-- What reading comes by before it stops is cut along with the text. -/
theorem exists_append_of_suffix (h : rest ++ tail <:+ left) :
    ∃ left', left = left' ++ tail ∧ rest <:+ left' := by
  obtain ⟨lead, rfl⟩ := h
  exact ⟨lead ++ rest, (List.append_assoc lead rest tail).symm, List.suffix_append lead rest⟩

theorem dropWhile_cut (h : (cs ++ tail).dropWhile p = rest ++ tail) : cs.dropWhile p = rest := by
  induction cs with
  | nil =>
    have hlen := length_dropWhile_le p tail
    rw [← List.nil_append tail, h, List.nil_append, List.length_append] at hlen
    exact (List.eq_nil_of_length_eq_zero (by omega)).symm
  | cons c cs ih =>
    rw [List.cons_append, List.dropWhile_cons] at h
    rw [List.dropWhile_cons]
    split
    · next hc =>
      rw [if_pos hc] at h
      exact ih h
    · next hc =>
      rw [if_neg hc, ← List.cons_append] at h
      exact List.append_cancel_right h

theorem skipGap_cut (h : skipGap (cs ++ tail) = rest ++ tail) : skipGap cs = rest :=
  dropWhile_cut h

theorem takeWhile_cut (h : (cs ++ tail).dropWhile p = rest ++ tail) :
    cs.takeWhile p = (cs ++ tail).takeWhile p := by
  have hcut := List.takeWhile_append_dropWhile (p := p) (l := cs)
  have hfull := List.takeWhile_append_dropWhile (p := p) (l := cs ++ tail)
  rw [dropWhile_cut h] at hcut
  rw [h, ← List.append_assoc] at hfull
  exact List.append_cancel_right (hcut.trans (List.append_cancel_right hfull).symm)

theorem takeLine_cons {c : Char} (hc : c ≠ '\n') (cs : List Char) :
    takeLine (c :: cs) = (c :: (takeLine cs).1, (takeLine cs).2) := by
  simp [takeLine, hc]

theorem takeLine_cut (h : (takeLine (cs ++ tail)).2 = rest ++ tail) :
    takeLine cs = ((takeLine (cs ++ tail)).1, rest) := by
  induction cs with
  | nil =>
    cases tail with
    | nil =>
      obtain ⟨rfl, -⟩ := List.append_eq_nil_iff.mp h.symm
      rfl
    | cons c tail =>
      have hlt := length_takeLine_lt (List.cons_ne_nil c tail)
      rw [← List.nil_append (c :: tail), h, List.nil_append, List.length_append] at hlt
      omega
  | cons c cs ih =>
    by_cases hc : c = '\n'
    · subst hc
      exact congrArg (Prod.mk []) (List.append_cancel_right h)
    · rw [List.cons_append, takeLine_cons hc] at h
      rw [List.cons_append, takeLine_cons hc, takeLine_cons hc, ih h]

theorem suffix_takeLine_cons (c : Char) (cs : List Char) : (takeLine (c :: cs)).2 <:+ cs := by
  have hle := List.suffix_cons_iff.mp (suffix_takeLine (c :: cs))
  have hlt := length_takeLine_lt (List.cons_ne_nil c cs)
  rcases hle with heq | hsuffix
  · rw [heq] at hlt
    omega
  · exact hsuffix

/-- The line that follows a gap, when the text ends below it. -/
theorem line_cut {c : Char} {line : List Char} (hs : skipGap (cs ++ tail) = c :: line)
    (h : (takeLine (c :: line)).2 = rest ++ tail) :
    ∃ line', skipGap cs = c :: line' ∧
      takeLine (c :: line') = ((takeLine (c :: line)).1, rest) := by
  obtain ⟨line', rfl, -⟩ := exists_append_of_suffix (h ▸ suffix_takeLine_cons c line)
  rw [← List.cons_append] at hs h
  exact ⟨line', skipGap_cut hs, takeLine_cut h⟩

theorem after?_cut (h : after? word (cs ++ tail) = some (rest ++ tail)) :
    after? word cs = some rest := by
  have heq := eq_of_after? h
  rw [← List.append_assoc] at heq
  rw [List.append_cancel_right heq, after?_append]

/-- A word that a text does not begin with is not at its front after the cut either. -/
theorem after?_cut_none (h : after? word (cs ++ tail) = none) : after? word cs = none := by
  cases hread : after? word cs with
  | none => rfl
  | some rest =>
    rw [eq_of_after? hread, List.append_assoc, after?_append] at h
    cases h

theorem splitAtFirst?_cut (h : splitAtFirst? [a, b] (cs ++ tail) = some (text, rest ++ tail)) :
    splitAtFirst? [a, b] cs = some (text, rest) := by
  obtain ⟨heq, hfree⟩ := eq_of_splitAtFirst? h
  have hcs : cs ++ tail = (text ++ a :: b :: rest) ++ tail := by
    rw [heq, List.append_assoc]
    rfl
  rw [List.append_cancel_right hcs]
  exact splitAtFirst?_append rest hfree

theorem eq_of_lineEnd? (h : lineEnd? cs = some rest) :
    cs = '\n' :: rest ∨ cs = '\r' :: '\n' :: rest := by
  unfold lineEnd? at h
  split at h
  · cases h
    exact .inl rfl
  · cases h
    exact .inr rfl
  · cases h

theorem lineEnd?_cut (h : lineEnd? (cs ++ tail) = some (rest ++ tail)) :
    lineEnd? cs = some rest := by
  rcases eq_of_lineEnd? h with heq | heq
  · rw [← List.cons_append] at heq
    rw [List.append_cancel_right heq]
    rfl
  · rw [← List.cons_append, ← List.cons_append] at heq
    rw [List.append_cancel_right heq]
    rfl

theorem lineEnd?_cut_none (h : lineEnd? (cs ++ tail) = none) : lineEnd? cs = none := by
  cases hread : lineEnd? cs with
  | none => rfl
  | some rest =>
    rcases eq_of_lineEnd? hread with rfl | rfl
    · cases h
    · cases h

end DotDiagram
