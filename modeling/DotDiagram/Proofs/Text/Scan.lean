import DotDiagram.Text.Blank
import DotDiagram.Text.Scan

/-! Where a reader stops: each one takes a text of its kind, whatever follows. -/

namespace DotDiagram

section

variable {p : Char → Bool} {body rest : List Char}

theorem not_of_mem_head? {c : Char} (h : p c = false) (cs : List Char) :
    ∀ d ∈ (c :: cs).head?, p d = false := by
  intro d hd
  rw [← Option.mem_some.mp hd]
  exact h

theorem takeWhile_append_of_head? (hb : ∀ c ∈ body, p c = true)
    (hr : ∀ c ∈ rest.head?, p c = false) : (body ++ rest).takeWhile p = body := by
  rw [List.takeWhile_append_of_pos hb]
  cases rest with
  | nil => simp
  | cons c cs =>
    have hc := hr c rfl
    simp [hc]

theorem dropWhile_of_head? (hr : ∀ c ∈ rest.head?, p c = false) : rest.dropWhile p = rest := by
  cases rest with
  | nil => rfl
  | cons c cs =>
    have hc := hr c rfl
    simp [hc]

theorem dropWhile_append_of_head? (hb : ∀ c ∈ body, p c = true)
    (hr : ∀ c ∈ rest.head?, p c = false) : (body ++ rest).dropWhile p = rest := by
  rw [List.dropWhile_append_of_pos hb]
  exact dropWhile_of_head? hr

theorem dropWhile_eq_nil (hb : ∀ c ∈ body, p c = true) : body.dropWhile p = [] := by
  have hd := dropWhile_append_of_head? hb (fun c hc => nomatch hc : ∀ c ∈ [].head?, p c = false)
  rwa [List.append_nil] at hd

end

theorem isGap_iff {c : Char} : isGap c = true ↔ c = ' ' ∨ c = '\t' := by
  simp [isGap]

theorem isBlank_of_isGap {c : Char} (h : isGap c = true) : isBlank c = true := by
  rcases isGap_iff.mp h with rfl | rfl <;> rfl

theorem skipGap_append {gap rest : List Char} (hg : ∀ c ∈ gap, isGap c = true) :
    skipGap (gap ++ rest) = skipGap rest :=
  List.dropWhile_append_of_pos hg

theorem skipGap_cons {c : Char} (hc : isGap c = false) (cs : List Char) :
    skipGap (c :: cs) = c :: cs :=
  dropWhile_of_head? (not_of_mem_head? hc cs)

theorem after?_append (word rest : List Char) : after? word (word ++ rest) = some rest := by
  induction word with
  | nil => rfl
  | cons w ws ih => rw [List.cons_append, after?, if_pos rfl, ih]

theorem after?_cons_of_ne {w c : Char} (ws cs : List Char) (h : c ≠ w) :
    after? (w :: ws) (c :: cs) = none := by
  rw [after?, if_neg h]

theorem afterIgnoringCase?_append {word written : List Char} (h : written.map Char.toLower = word)
    (rest : List Char) : afterIgnoringCase? word (written ++ rest) = some rest := by
  induction written generalizing word with
  | nil =>
    rw [← h]
    rfl
  | cons c cs ih =>
    rw [← h, List.map_cons, List.cons_append, afterIgnoringCase?, if_pos rfl]
    exact ih rfl

theorem afterIgnoringCase?_cons_of_ne {w c : Char} (ws cs : List Char) (h : c.toLower ≠ w) :
    afterIgnoringCase? (w :: ws) (c :: cs) = none := by
  rw [afterIgnoringCase?, if_neg h]

theorem infix_of_append_left {a b : Char} {lead text : List Char} (hl : ∀ c ∈ lead, c ≠ a)
    (h : [a, b] <:+: lead ++ text) : [a, b] <:+: text := by
  induction lead with
  | nil => exact h
  | cons c cs ih =>
    rw [List.cons_append] at h
    rcases List.infix_cons_iff.mp h with hp | hi
    · obtain ⟨tail, ht⟩ := hp
      exact absurd (List.cons.inj ht).1.symm (hl c List.mem_cons_self)
    · exact ih (fun d hd => hl d (List.mem_cons_of_mem c hd)) hi

theorem infix_of_append_right {a b : Char} {text trail : List Char} (ht : ∀ c ∈ trail, c ≠ b)
    (h : [a, b] <:+: text ++ trail) : [a, b] <:+: text := by
  have hrev : [b, a] <:+: trail.reverse ++ text.reverse := by
    rw [← List.reverse_append]
    exact List.reverse_infix.mpr h
  have hi := infix_of_append_left (fun c hc => ht c (List.mem_reverse.mp hc)) hrev
  exact List.reverse_infix.mp hi

/-- A mark of two characters is found where it first stands, also when the text before
it ends with the first of them. -/
theorem splitAtFirst?_append {a b : Char} {text : List Char} (rest : List Char)
    (h : ¬ [a, b] <:+: text ++ [a]) :
    splitAtFirst? [a, b] (text ++ a :: b :: rest) = some (text, rest) := by
  induction text with
  | nil => simp [splitAtFirst?, after?]
  | cons c cs ih =>
    have hcs : ¬ [a, b] <:+: cs ++ [a] := fun hi => h (hi.trans (List.suffix_cons c _).isInfix)
    have hnone : after? [a, b] (c :: (cs ++ a :: b :: rest)) = none := by
      by_cases hc : c = a
      · have hhead : ∀ d ∈ (cs ++ [a]).head?, d ≠ b := by
          intro d hd heq
          obtain ⟨tail, ht⟩ := List.head?_eq_some_iff.mp hd
          apply h
          rw [List.cons_append, ht, hc, heq]
          exact (List.prefix_append [a, b] tail).isInfix
        cases cs with
        | nil =>
          have hne : a ≠ b := hhead a rfl
          rw [hc, after?, if_pos rfl]
          exact after?_cons_of_ne _ _ hne
        | cons d ds =>
          have hne : d ≠ b := hhead d rfl
          rw [hc, after?, if_pos rfl]
          exact after?_cons_of_ne _ _ hne
      · exact after?_cons_of_ne _ _ hc
    rw [List.cons_append, splitAtFirst?, hnone, ih hcs]
    rfl

theorem span_line {line : List Char} (hl : '\n' ∉ line) (rest : List Char) :
    (line ++ '\n' :: rest).takeWhile (· != '\n') = line ∧
      (line ++ '\n' :: rest).dropWhile (· != '\n') = '\n' :: rest := by
  have hline : ∀ c ∈ line, (c != '\n') = true := by
    intro c hc
    rw [bne_iff_ne]
    rintro rfl
    exact hl hc
  have hstop : ∀ c ∈ ('\n' :: rest).head?, (c != '\n') = false := not_of_mem_head? rfl rest
  exact ⟨takeWhile_append_of_head? hline hstop, dropWhile_append_of_head? hline hstop⟩

theorem takeLine_append {line : List Char} (hl : '\n' ∉ line) (rest : List Char) :
    takeLine (line ++ '\n' :: rest) = (line, rest) := by
  rw [takeLine, (span_line hl rest).1, (span_line hl rest).2]
  rfl

theorem lineEnd?_of_head? {c : Char} {cs : List Char} (hn : c ≠ '\n') (hr : c ≠ '\r') :
    lineEnd? (c :: cs) = none := by
  unfold lineEnd?
  split
  · next heq => exact absurd (List.cons.inj heq).1 hn
  · next heq => exact absurd (List.cons.inj heq).1 hr
  · rfl

theorem trimRight_append {text trail : List Char} (ht : ∀ c ∈ trail, isBlank c = true) :
    trimRight (text ++ trail) = trimRight text := by
  have hrev : ∀ c ∈ trail.reverse, isBlank c = true := fun c hc => ht c (List.mem_reverse.mp hc)
  rw [trimRight, List.reverse_append, List.dropWhile_append_of_pos hrev]
  rfl

theorem trim_append_blanks {text trail : List Char} (ht : ∀ c ∈ trail, isBlank c = true) :
    trim (text ++ trail) = trim text := by
  rw [trim, trimLeft, List.dropWhile_append]
  split
  · next hempty =>
    have hnil : trimLeft text = [] := List.isEmpty_iff.mp hempty
    rw [dropWhile_eq_nil ht, trim, hnil]
  · exact trimRight_append ht

theorem prefix_trimRight (cs : List Char) : trimRight cs <+: cs := by
  have hrev := List.reverse_prefix.mpr (List.dropWhile_suffix isBlank (l := cs.reverse))
  rwa [List.reverse_reverse] at hrev

theorem infix_trim (cs : List Char) : trim cs <:+: cs :=
  (prefix_trimRight (trimLeft cs)).isInfix.trans (List.dropWhile_suffix isBlank).isInfix

theorem mem_of_mem_trim {c : Char} {cs : List Char} (h : c ∈ trim cs) : c ∈ cs :=
  (infix_trim cs).subset h

theorem trimLeft_skipGap (cs : List Char) : trimLeft (skipGap cs) = trimLeft cs := by
  induction cs with
  | nil => rfl
  | cons c cs ih =>
    rw [skipGap, List.dropWhile_cons]
    split
    · next hc =>
      have hleft : trimLeft (c :: cs) = trimLeft cs :=
        List.dropWhile_cons_of_pos (isBlank_of_isGap hc)
      exact ih.trans hleft.symm
    · rfl

theorem trim_skipGap (cs : List Char) : trim (skipGap cs) = trim cs :=
  congrArg trimRight (trimLeft_skipGap cs)

section

variable {c : Char} (hc : isBlank c = false) (text rest : List Char)
include hc

theorem trimLeft_append_cons : trimLeft (text ++ c :: rest) = trimLeft text ++ c :: rest := by
  have hneg : ¬ isBlank c = true := by simp [hc]
  induction text with
  | nil => exact List.dropWhile_cons_of_neg hneg
  | cons d ds ih =>
    rw [trimLeft, List.cons_append, List.dropWhile_cons, trimLeft, List.dropWhile_cons]
    split
    · exact ih
    · rfl

theorem trimRight_append_cons : trimRight (text ++ c :: rest) = text ++ c :: trimRight rest := by
  have hleft := trimLeft_append_cons hc rest.reverse text.reverse
  have hrev : (text ++ c :: rest).reverse = rest.reverse ++ c :: text.reverse := by simp
  rw [trimLeft] at hleft
  rw [trimRight, hrev, hleft, trimRight, trimLeft]
  simp

theorem trim_append_cons : trim (text ++ c :: rest) = trimLeft text ++ c :: trimRight rest := by
  rw [trim, trimLeft_append_cons hc, trimRight_append_cons hc]

end

theorem trimRight_eq_nil {cs : List Char} (h : ∀ c ∈ cs, isBlank c = true) : trimRight cs = [] :=
  show trimRight ([] ++ cs) = [] from trimRight_append h

theorem trimLeft_of_trim {text : List Char} (h : trim text = text) : trimLeft text = text := by
  have hle : text.length ≤ (trimLeft text).length := by
    have hr : (trim text).length ≤ (trimLeft text).length := by
      rw [trim, trimRight, List.length_reverse]
      have hd := length_dropWhile_le isBlank (trimLeft text).reverse
      rwa [List.length_reverse] at hd
    rwa [h] at hr
  exact (List.dropWhile_sublist isBlank).eq_of_length_le hle

theorem isBlank_of_trim_cons {c : Char} {cs : List Char} (h : trim (c :: cs) = c :: cs) :
    isBlank c = false := by
  apply Bool.eq_false_iff.mpr
  intro hb
  have hleft := trimLeft_of_trim h
  rw [trimLeft, List.dropWhile_cons, if_pos hb] at hleft
  have hlen := length_dropWhile_le isBlank cs
  rw [hleft, List.length_cons] at hlen
  omega

/-- Trimming takes off just what was put around. -/
theorem trim_append {lead text trail : List Char} (hl : ∀ c ∈ lead, isBlank c = true)
    (h : trim text = text) (ht : ∀ c ∈ trail, isBlank c = true) :
    trim (lead ++ text ++ trail) = text := by
  rw [trim, trimLeft, List.append_assoc, List.dropWhile_append_of_pos hl]
  cases htext : text with
  | nil =>
    rw [List.nil_append, dropWhile_eq_nil ht]
    rfl
  | cons c cs =>
    have hleft := trimLeft_of_trim h
    have hc : isBlank c = false := isBlank_of_trim_cons (htext ▸ h)
    have hstop : (c :: cs ++ trail).dropWhile isBlank = c :: cs ++ trail :=
      dropWhile_of_head? (not_of_mem_head? hc _)
    rw [hstop, trimRight_append ht, ← htext]
    rw [trim, hleft] at h
    exact h

end DotDiagram
