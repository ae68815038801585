import DotDiagram.Proofs.ClassDiagram.Block
import DotDiagram.Proofs.ClassDiagram.Items

/-! What is written is read. No alternative that is tried before takes a passage for its
own, and so passages are read one by one, to the end. -/

namespace DotDiagram.ClassDiagram

variable {rest : List Char}

theorem arrow?_append (arrow : Arrow) (rest : List Char) : ∃ kind reversed,
    arrow? (arrow.text.toList ++ rest) = some ((kind, reversed), rest) ∧
      ∀ left right label, arrow.relation left right label =
        let (source, target) := if reversed then (right, left) else (left, right)
        ⟨source, target, kind, label⟩ := by
  cases arrow <;> exact ⟨_, _, rfl, fun _ _ _ => rfl⟩

theorem skipGap_arrow (arrow : Arrow) :
    skipGap (arrow.text.toList ++ rest) = arrow.text.toList ++ rest := by
  cases arrow <;> rfl

theorem optionalLabel_append (r : RelationLine) (e : LineEnd) (rest : List Char) : ∃ left,
    optionalLabel (r.labelChars ++ (e.chars ++ rest)) =
      (r.label.map fun label => label.phrase.text, left) ∧ skipLineEnd (skipGap left) = rest := by
  unfold optionalLabel RelationLine.labelChars
  cases r.label with
  | none =>
    have hnone : label? (e.chars ++ rest) = none := by
      rw [label?, e.skipGap_chars]
      cases e.carriage <;> rfl
    refine ⟨e.chars ++ rest, ?_, ?_⟩
    · simp only [Option.map_none, Option.getD_none, List.nil_append, hnone]
    · rw [skipLineEnd, e.lineEnd?_skipGap]
      rfl
  | some label =>
    have hread : label? (label.chars ++ (e.chars ++ rest)) =
        some (label.phrase.text, '\n' :: rest) := by
      have hcolon : skipGap (label.chars ++ (e.chars ++ rest)) =
          ':' :: (label.after.chars ++ (label.phrase.chars ++ (e.chars ++ rest))) := by
        simp only [Label.chars, List.append_assoc, List.cons_append]
        exact skipGap_append label.before.gaps
      have hphrase : skipGap (label.after.chars ++ (label.phrase.chars ++ (e.chars ++ rest))) =
          (label.phrase.chars ++ e.before) ++ '\n' :: rest := by
        rw [skipGap_append label.after.gaps, label.phrase.skipGap_append, e.append_chars]
      obtain ⟨htake, hdrop⟩ := span_line (e.not_mem_line label.phrase.oneLine) rest
      have hshown : (label.phrase.chars ++ e.before).isEmpty = false := by
        simp [label.phrase.nonempty]
      simp only [label?, hcolon, after?, if_true, hphrase, htake, hdrop, hshown,
        label.phrase.trim_line]
      rfl
    have hne : label.phrase.text.isEmpty = false := by
      simp [Phrase.text, label.phrase.nonempty]
    refine ⟨'\n' :: rest, ?_, rfl⟩
    simp only [Option.map_some, Option.getD_some, hread, hne]
    rfl

theorem Gap.head?_append (gap : Gap) :
    ∀ c ∈ (gap.chars ++ rest).head?, isNameChar c = false := by
  obtain ⟨c, cs, hchars, hc⟩ := gap.exists_cons
  rw [hchars]
  exact not_of_mem_head? (isNameChar_of_isGap hc) _

theorem relation?_append (r : RelationLine) (e : LineEnd) :
    relation? (r.chars ++ (e.chars ++ rest)) = some (r.relation, rest) := by
  have hchars : r.chars ++ (e.chars ++ rest) = r.left.chars ++ (r.before.chars ++
      (r.arrow.text.toList ++ (r.after.chars ++ (r.right.chars ++
        (r.labelChars ++ (e.chars ++ rest)))))) := by
    simp [RelationLine.chars]
  have hstop : ∀ c ∈ (r.labelChars ++ (e.chars ++ rest)).head?, isNameChar c = false := by
    unfold RelationLine.labelChars
    cases r.label with
    | none => exact e.head?_append (fun _ => isNameChar_of_isGap) rfl rfl
    | some label =>
      rw [Option.map_some, Option.getD_some, Label.chars, List.append_assoc]
      exact label.before.head?_append (fun _ => isNameChar_of_isGap) (not_of_mem_head? rfl _)
  obtain ⟨kind, reversed, harrow, hrelation⟩ := arrow?_append r.arrow
    (r.after.chars ++ (r.right.chars ++ (r.labelChars ++ (e.chars ++ rest))))
  obtain ⟨left, hlabel, hleft⟩ := optionalLabel_append r e rest
  rw [hchars, relation?, name?_append r.left r.before.head?_append]
  simp only [skipGap_append r.before.gaps, skipGap_arrow, harrow, skipGap_append r.after.gaps,
    skipGap_name, name?_append r.right hstop, hlabel, hleft, RelationLine.relation, hrelation]

/-- No relation begins like a class, not even one that begins with a keyword. -/
theorem class?_relation (r : RelationLine) (e : LineEnd) :
    class? (r.chars ++ (e.chars ++ rest)) = none :=
  class?_of_relation? (relation?_append r e)

theorem RelationLine.exists_cons (r : RelationLine) : ∃ c cs, r.chars = c :: cs ∧ c ∉ marks := by
  obtain ⟨c, cs, hchars, hc⟩ := r.left.exists_cons
  rw [chars, hchars]
  exact ⟨c, _, rfl, not_mark_of_isNameChar hc⟩

theorem silent?_of_lineEnd? {text left : List Char} (h : lineEnd? text = some left) :
    silent? text = some left := by
  unfold silent?
  rw [h]

theorem item?_of_silent? {text left : List Char} (h : silent? (skipGap text) = some left) :
    item? text = some (.silent, left) := by
  rw [item?, itemAt?, h]

theorem item?_writing (writing : Writing) (e : LineEnd) :
    item? (writing.chars ++ (e.chars ++ rest)) = some (writing.item, rest) := by
  cases writing with
  | classBlock b =>
    have hclass : class? (b.chars ++ (e.chars ++ rest)) = some (b.decl, rest) := class?_append b e
    rw [b.chars_eq, List.append_assoc] at hclass
    rw [Writing.chars, b.chars_eq, List.append_assoc, b.header.item?_append, hclass]
    rfl
  | relation r =>
    obtain ⟨c, cs, hchars, hc⟩ := r.exists_cons
    simp only [Writing.chars, item?, skipGap_of_not_mark hc hchars, itemAt?,
      silent?_of_not_mark hc hchars, class?_relation, relation?_append, Writing.item]
  | blank =>
    apply item?_of_silent?
    rw [Writing.chars, List.nil_append]
    exact silent?_of_lineEnd? e.lineEnd?_skipGap
  | comment text =>
    have hline : takeLine (text.chars ++ (e.chars ++ rest)) = _ := e.takeLine_append text.oneLine
    apply item?_of_silent?
    show some (takeLine (text.chars ++ (e.chars ++ rest))).2 = some rest
    rw [hline]
  | directive text =>
    have hline : takeLine (text.chars ++ (e.chars ++ rest)) = _ := e.takeLine_append text.oneLine
    apply item?_of_silent?
    show some (takeLine (text.chars ++ (e.chars ++ rest))).2 = some rest
    rw [hline]
  | blockComment body free tail =>
    have hline : takeLine (tail.chars ++ (e.chars ++ rest)) = _ := e.takeLine_append tail.oneLine
    have hmark : ¬ ['\'', '/'] <:+: body ++ ['\''] := by
      intro h
      rcases List.infix_concat_iff.mp h with ⟨before, hb⟩ | hinfix
      · have hlast := congrArg List.getLast? hb
        simp at hlast
      · exact free hinfix
    have hclose : splitAtFirst? "'/".toList
        (body ++ '\'' :: '/' :: (tail.chars ++ (e.chars ++ rest))) =
          some (body, tail.chars ++ (e.chars ++ rest)) := splitAtFirst?_append _ hmark
    apply item?_of_silent?
    have hchars : (Writing.blockComment body free tail).chars ++ (e.chars ++ rest) =
        '/' :: '\'' :: (body ++ '\'' :: '/' :: (tail.chars ++ (e.chars ++ rest))) := by
      simp [Writing.chars]
    rw [hchars]
    show (splitAtFirst? "'/".toList _).map _ = some rest
    rw [hclose, Option.map_some, hline]

theorem item?_passage (p : Passage) : item? (p.chars ++ rest) = some (p.writing.item, rest) := by
  have hskip : skipGap (p.chars ++ rest) =
      skipGap (p.writing.chars ++ (p.lineEnd.chars ++ rest)) := by
    rw [Passage.chars, List.append_assoc, skipGap_append p.indent.gaps, List.append_assoc]
  have hitem : item? (p.writing.chars ++ (p.lineEnd.chars ++ rest)) = _ :=
    item?_writing p.writing p.lineEnd
  rw [item?] at hitem
  rw [item?, hskip, hitem]

theorem items_passages (passages : List Passage) :
    items (passages.flatMap Passage.chars) = (passages.map fun p => p.writing.item, []) := by
  induction passages with
  | nil => exact items_nil
  | cons p passages ih =>
    rw [List.flatMap_cons, items_of_item? (item?_passage p), ih]
    rfl

theorem ofItems_passages (passages : List Passage) :
    ofItems (passages.map fun p => p.writing.item) =
      ⟨passages.filterMap Passage.decl?, passages.filterMap Passage.relation?⟩ := by
  have hdecl : (Item.declared? ∘ fun p : Passage => p.writing.item) = Passage.decl? := by
    funext p
    obtain ⟨indent, writing, e⟩ := p
    cases writing <;> rfl
  have hrelation : (Item.related? ∘ fun p : Passage => p.writing.item) = Passage.relation? := by
    funext p
    obtain ⟨indent, writing, e⟩ := p
    cases writing <;> rfl
  rw [ofItems, List.filterMap_map, List.filterMap_map, hdecl, hrelation]

/-- Every text that is written so is accepted, and says just the classes and relations
written, in their order. -/
theorem ofText_passages (passages : List Passage) :
    ofText (String.ofList (passages.flatMap Passage.chars)) =
      .ok ⟨passages.filterMap Passage.decl?, passages.filterMap Passage.relation?⟩ := by
  have hitems := items_passages passages
  rw [← String.toList_ofList (l := passages.flatMap Passage.chars)] at hitems
  rw [ofText_of_items hitems, ofItems_passages]

end DotDiagram.ClassDiagram
