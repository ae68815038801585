import DotDiagram.Proofs.ClassDiagram.LineEndings
import DotDiagram.Proofs.ClassDiagram.Joining
import DotDiagram.Proofs.Text.Cut
import DotDiagram.Proofs.Text.Trim

/-! Where reading stops. A text that is rejected falls into a part that is accepted by itself
and a part that nothing can be read from, and the complaint shows the first line of the latter.
The first part is accepted because everything is read from what is consumed of the text alone. -/

namespace DotDiagram.ClassDiagram

variable {cs rest tail : List Char}

theorem name?_cut {name : String} (h : name? (cs ++ tail) = some (name, rest ++ tail)) :
    name? cs = some (name, rest) := by
  have hrest := (dropWhile_of_name? h).symm
  have htake := takeWhile_cut hrest
  rw [name?] at h ⊢
  rw [htake, dropWhile_cut hrest]
  split
  · next hempty =>
    rw [if_pos hempty] at h
    cases h
  · next hshown =>
    rw [if_neg hshown, Option.some.injEq, Prod.mk.injEq] at h
    rw [h.1]

theorem arrow?_cut {meaning : RelationKind × Bool}
    (h : arrow? (cs ++ tail) = some (meaning, rest ++ tail)) :
    arrow? cs = some (meaning, rest) := by
  unfold arrow? at h ⊢
  generalize arrows = all at h ⊢
  induction all with
  | nil => cases h
  | cons arrow all ih =>
    obtain ⟨word, found⟩ := arrow
    simp only [List.findSome?_cons] at h ⊢
    cases hread : after? word.toList (cs ++ tail) with
    | none =>
      rw [hread] at h
      rw [after?_cut_none hread]
      exact ih h
    | some left =>
      rw [hread] at h
      cases h
      rw [after?_cut hread]
      rfl

theorem ends?_cut {ends : String × (RelationKind × Bool) × String}
    (h : ends? (cs ++ tail) = some (ends, rest ++ tail)) : ends? cs = some (ends, rest) := by
  simp only [ends?, Option.bind_eq_some_iff, Option.map_eq_some_iff] at h
  obtain ⟨⟨first, cs₁⟩, hfirst, ⟨arrow, cs₂⟩, harrow, ⟨second, cs₃⟩, hsecond, heq⟩ := h
  cases heq
  obtain ⟨right, hright, -⟩ := exists_append_of_suffix (suffix_of_name? hsecond)
  obtain ⟨behind, rfl, -⟩ := exists_append_of_suffix (hright ▸ suffix_skipGap cs₂)
  obtain ⟨middle, hmiddle, -⟩ := exists_append_of_suffix (suffix_of_arrow? harrow)
  obtain ⟨before, rfl, -⟩ := exists_append_of_suffix (hmiddle ▸ suffix_skipGap cs₁)
  rw [hright] at hsecond
  rw [hmiddle] at harrow
  simp only [ends?, name?_cut hfirst, skipGap_cut hmiddle, arrow?_cut harrow, skipGap_cut hright,
    name?_cut hsecond, Option.bind_some, Option.map_some]

theorem skipLineEnd_cut (h : skipLineEnd (cs ++ tail) = rest ++ tail) : skipLineEnd cs = rest := by
  unfold skipLineEnd at h ⊢
  cases hread : lineEnd? (cs ++ tail) with
  | none =>
    rw [hread] at h
    rw [lineEnd?_cut_none hread]
    exact List.append_cancel_right h
  | some left =>
    rw [hread] at h
    have hleft : left = rest ++ tail := h
    rw [hleft] at hread
    rw [lineEnd?_cut hread]
    rfl

theorem takeLine_skipGap_eq_nil (h : (takeLine (skipGap (cs ++ tail))).1 = []) :
    (takeLine (skipGap cs)).1 = [] := by
  cases hs : skipGap cs with
  | nil => rfl
  | cons c line =>
    have hskip : skipGap (cs ++ tail) = c :: (line ++ tail) := by
      have hshown : (skipGap cs).isEmpty = false := by
        rw [hs]
        rfl
      rw [skipGap] at hs hshown
      rw [skipGap, List.dropWhile_append, hshown, hs]
      rfl
    rw [hskip] at h
    by_cases hc : c = '\n'
    · rw [hc]
      rfl
    · simp [takeLine, hc] at h

/-- A colon without a label is not read, so that it may be what is cut off. -/
theorem labelled_cut {label : Option String} (h : labelled (cs ++ tail) = (label, rest ++ tail)) :
    labelled cs = (label, rest) := by
  cases hcolon : after? [':'] (skipGap (cs ++ tail)) with
  | none =>
    rw [labelled_of_none hcolon, Prod.mk.injEq] at h
    obtain ⟨rfl, hrest⟩ := h
    obtain ⟨left, hleft, -⟩ := exists_append_of_suffix (hrest ▸ suffix_skipLineEnd _)
    rw [hleft] at hcolon hrest
    have hskip := skipGap_cut hleft
    have hcolon' : after? [':'] (skipGap cs) = none := hskip ▸ after?_cut_none hcolon
    rw [labelled_of_none hcolon', hskip, skipLineEnd_cut hrest]
  | some left =>
    have hopen : skipGap (cs ++ tail) = ':' :: left := eq_of_after? hcolon
    by_cases ht : (takeLine (skipGap left)).1 = []
    · rw [labelled_of_empty hcolon ht, Prod.mk.injEq] at h
      obtain ⟨rfl, hrest⟩ := h
      have hskip := skipGap_cut (hopen.trans hrest)
      cases rest with
      | nil =>
        have hcolon' : after? [':'] (skipGap cs) = none := by
          rw [hskip]
          rfl
        rw [labelled_of_none hcolon', hskip]
        rfl
      | cons c rest =>
        obtain ⟨rfl, rfl⟩ := List.cons.inj hrest
        have hcolon' : after? [':'] (skipGap cs) = some rest := by
          rw [hskip]
          rfl
        exact labelled_of_empty hcolon' (takeLine_skipGap_eq_nil ht)
    · rw [labelled_of_text hcolon ht, Prod.mk.injEq] at h
      obtain ⟨rfl, hrest⟩ := h
      obtain ⟨line, hline, -⟩ := exists_append_of_suffix (hrest ▸ suffix_takeLine _)
      obtain ⟨left', rfl, -⟩ := exists_append_of_suffix (hline ▸ suffix_skipGap left)
      rw [← List.cons_append] at hopen
      have hcolon' : after? [':'] (skipGap cs) = some left' := by
        rw [skipGap_cut hopen]
        rfl
      have hread : takeLine (skipGap left') = ((takeLine (skipGap (left' ++ tail))).1, rest) := by
        rw [skipGap_cut hline, hline]
        exact takeLine_cut (hline ▸ hrest)
      have ht' : (takeLine (skipGap left')).1 ≠ [] := by
        rw [hread]
        exact ht
      rw [labelled_of_text hcolon' ht', hread]

theorem relation?_cut {r : Relation} (h : relation? (cs ++ tail) = some (r, rest ++ tail)) :
    relation? cs = some (r, rest) := by
  rw [relation?_eq_map, Option.map_eq_some_iff] at h
  obtain ⟨⟨ends, behind⟩, hends, heq⟩ := h
  obtain ⟨rfl, hrest⟩ := Prod.mk.inj heq
  have hsuffix : (labelled behind).2 <:+ behind :=
    (suffix_skipLineEnd _).trans ((suffix_skipGap _).trans (suffix_optionalLabel behind))
  obtain ⟨behind', rfl, -⟩ := exists_append_of_suffix (hrest ▸ hsuffix)
  have hlabel : labelled (behind' ++ tail) = ((labelled (behind' ++ tail)).1, rest ++ tail) :=
    Prod.ext rfl hrest
  rw [relation?_eq_map, ends?_cut hends, Option.map_some, labelled_cut hlabel]

theorem body?_cut {inComment : Bool} {members : List String}
    (h : body? inComment (cs ++ tail) = some (members, rest ++ tail)) :
    body? inComment cs = some (members, rest) := by
  induction hn : cs.length using Nat.strongRecOn generalizing inComment cs members with
  | ind n ih =>
    cases hs : skipGap (cs ++ tail) with
    | nil =>
      rw [body?_of_skipGap_nil inComment hs] at h
      cases h
    | cons c line =>
      have hshort : ∀ {line' text left}, skipGap cs = c :: line' →
          takeLine (c :: line') = (text, left) → left.length < n := by
        intro line' text left hskip hread
        have hlt := length_takeLine_lt (List.cons_ne_nil c line')
        have hle := length_skipGap_le cs
        rw [hread] at hlt
        rw [hskip, hn] at hle
        exact Nat.lt_of_lt_of_le hlt hle
      rw [body?_of_skipGap hs] at h
      split at h
      · next hbrace =>
        obtain ⟨hmembers, hrest⟩ := Prod.mk.inj (Option.some.inj h)
        have hfeed : c ≠ '\n' := by
          rintro rfl
          simp at hbrace
        have hbelow : (takeLine (c :: line)).2 = rest ++ tail := by
          rw [takeLine_cons hfeed]
          exact hrest
        obtain ⟨line', hskip, hread⟩ := line_cut hs hbelow
        rw [takeLine_cons hfeed] at hread
        rw [body?_of_skipGap hskip, if_pos hbrace, (Prod.mk.inj hread).2, hmembers]
      · next hbrace =>
        split at h
        · next hcomment =>
          obtain ⟨left, hleft, -⟩ := exists_append_of_suffix (suffix_of_body? h)
          obtain ⟨line', hskip, hread⟩ := line_cut hs hleft
          rw [hleft] at h
          rw [body?_of_skipGap hskip, if_neg hbrace, hread, if_pos hcomment]
          exact ih _ (hshort hskip hread) h rfl
        · next hcomment =>
          obtain ⟨⟨below, rest'⟩, hbody, heq⟩ := Option.map_eq_some_iff.mp h
          obtain ⟨hmembers, rfl⟩ := Prod.mk.inj heq
          obtain ⟨left, hleft, -⟩ := exists_append_of_suffix (suffix_of_body? hbody)
          obtain ⟨line', hskip, hread⟩ := line_cut hs hleft
          rw [hleft] at hbody
          rw [body?_of_skipGap hskip, if_neg hbrace, hread, if_neg hcomment,
            ih _ (hshort hskip hread) hbody rfl, Option.map_some, hmembers]

theorem members?_cut {members : List String}
    (h : members? (cs ++ tail) = some (members, rest ++ tail)) :
    members? cs = some (members, rest) := by
  simp only [members?] at h ⊢
  split at h
  · next hbrace =>
    obtain ⟨hmembers, hrest⟩ := Prod.mk.inj (Option.some.inj h)
    rw [takeLine_cut hrest, if_pos hbrace, hmembers]
  · next hbrace =>
    obtain ⟨left, hleft, -⟩ := exists_append_of_suffix (suffix_of_body? h)
    rw [hleft] at h
    rw [takeLine_cut hleft, if_neg hbrace]
    exact body?_cut h

theorem class?_cut {c : ClassDecl} (h : class? (cs ++ tail) = some (c, rest ++ tail)) :
    class? cs = some (c, rest) := by
  obtain ⟨header, below, heq⟩ := exists_header h
  rw [heq, header.class?_append, Option.map_eq_some_iff] at h
  obtain ⟨⟨members, left⟩, hmembers, hdecl⟩ := h
  obtain ⟨rfl, rfl⟩ := Prod.mk.inj hdecl
  obtain ⟨below', rfl, -⟩ := exists_append_of_suffix (suffix_of_members? hmembers)
  rw [← List.append_assoc] at heq
  rw [List.append_cancel_right heq, header.class?_append, members?_cut hmembers]
  rfl

theorem silent?_cut (h : silent? (cs ++ tail) = some (rest ++ tail)) : silent? cs = some rest := by
  rcases cases_of_silent? h with hl | ⟨c, line, hc, heq, hrest⟩ | ⟨line, text, left, heq, hs, hrest⟩
  · unfold silent?
    rw [lineEnd?_cut hl]
  · obtain ⟨line', rfl, -⟩ := exists_append_of_suffix (hrest ▸ suffix_takeLine line)
    rw [← List.cons_append] at heq
    rw [List.append_cancel_right heq]
    have hread := congrArg (some ∘ Prod.snd) (takeLine_cut hrest.symm)
    rcases hc with rfl | rfl
    · exact hread
    · exact hread
  · obtain ⟨left', rfl, -⟩ := exists_append_of_suffix (hrest ▸ suffix_takeLine left)
    obtain ⟨line', rfl, -⟩ := exists_append_of_suffix (suffix_of_splitAtFirst? hs)
    rw [← List.cons_append, ← List.cons_append] at heq
    rw [List.append_cancel_right heq]
    have hclose : splitAtFirst? ['\'', '/'] line' = some (text, left') := splitAtFirst?_cut hs
    show (splitAtFirst? ['\'', '/'] line').map _ = some rest
    rw [hclose, Option.map_some, takeLine_cut hrest.symm]

theorem item?_cut {item : Item} (h : item? (cs ++ tail) = some (item, rest ++ tail)) :
    item? cs = some (item, rest) := by
  obtain ⟨left, hleft, -⟩ := exists_append_of_suffix (suffix_of_itemAt? h)
  rw [item?, skipGap_cut hleft]
  rw [item?, hleft] at h
  rcases cases_of_itemAt? h with ⟨rfl, hs⟩ | ⟨c, rfl, hc⟩ | ⟨r, rfl, hr⟩
  · exact itemAt?_of_silent? (silent?_cut hs)
  · exact itemAt?_of_class? (class?_cut hc)
  · exact itemAt?_of_relation? (relation?_cut hr)

/-- What is read is all of what is consumed, and nothing is read from what is left. -/
theorem items_split (cs : List Char) :
    ∃ before, cs = before ++ (items cs).2 ∧ items before = ((items cs).1, []) ∧
      item? (items cs).2 = none := by
  fun_induction items cs with
  | case1 cs hnone => exact ⟨[], rfl, items_nil, hnone⟩
  | case2 cs item rest hitem ih =>
    obtain ⟨below, hrest, hbelow, hnone⟩ := ih
    obtain ⟨lead, rfl⟩ := suffix_of_item? hitem
    have hsplit : lead ++ rest = (lead ++ below) ++ (items rest).2 := by
      rw [List.append_assoc, ← hrest]
    have hread : item? ((lead ++ below) ++ (items rest).2) =
        some (item, below ++ (items rest).2) := by
      rw [← hsplit, ← hrest]
      exact hitem
    exact ⟨lead ++ below, hsplit, by rw [items_of_item? (item?_cut hread), hbelow], hnone⟩

/-- The text says something, but no comment, directive or blank line begins it, and no class or
relation. -/
structure Unreadable (text : List Char) : Prop where
  shown : ∃ c ∈ text, isBlank c = false
  silent : silent? (skipGap text) = none
  declared : class? (skipGap text) = none
  related : relation? (skipGap text) = none

/-- The first line of a text, less the white space around it and the lines of white space
above it. -/
structure FirstLine (text line : List Char) : Prop where
  around : ∃ lead trail below, text = lead ++ line ++ trail ++ below ∧
    (∀ c ∈ lead, isBlank c = true) ∧ (∀ c ∈ trail, isBlank c = true) ∧
    '\n' ∉ line ++ trail ∧ ∀ c ∈ below.head?, c = '\n'
  head : ∃ c ∈ line.head?, isBlank c = false
  last : ∃ c ∈ line.getLast?, isBlank c = false

theorem unreadable_of_none (h : item? cs = none) (hshown : ∃ c ∈ cs, isBlank c = false) :
    Unreadable cs := by
  have hitem : ∀ {read}, itemAt? (skipGap cs) ≠ some read := by
    intro read hread
    rw [item?, hread] at h
    cases h
  refine ⟨hshown, ?_, ?_, ?_⟩
  · exact Option.eq_none_iff_forall_ne_some.mpr fun _ hs => hitem (itemAt?_of_silent? hs)
  · exact Option.eq_none_iff_forall_ne_some.mpr fun _ hc => hitem (itemAt?_of_class? hc)
  · exact Option.eq_none_iff_forall_ne_some.mpr fun _ hr => hitem (itemAt?_of_relation? hr)

theorem exists_trimLeft (h : ∃ c ∈ cs, isBlank c = false) :
    ∃ lead c line, cs = lead ++ c :: line ∧ trimLeft cs = c :: line ∧
      (∀ d ∈ lead, isBlank d = true) ∧ isBlank c = false := by
  have hsplit : cs.takeWhile isBlank ++ trimLeft cs = cs := List.takeWhile_append_dropWhile
  have hstop := List.head?_dropWhile_not isBlank cs
  rw [← trimLeft] at hstop
  cases hleft : trimLeft cs with
  | nil =>
    obtain ⟨c, hc, hshown⟩ := h
    rw [List.dropWhile_eq_nil_iff.mp hleft c hc] at hshown
    cases hshown
  | cons c line =>
    rw [hleft] at hsplit hstop
    exact ⟨cs.takeWhile isBlank, c, line, hsplit.symm, rfl, fun _ hd => List.mem_takeWhile_imp hd,
      by simpa using hstop⟩

theorem firstLine (h : ∃ c ∈ cs, isBlank c = false) :
    FirstLine cs (trim ((trimLeft cs).takeWhile (· != '\n'))) := by
  obtain ⟨above, c, line, hcs, hleft, habove, hc⟩ := exists_trimLeft h
  have hfeed : (c != '\n') = true := by
    rw [bne_iff_ne]
    rintro rfl
    cases hc
  have hline : (c :: line).takeWhile (· != '\n') = c :: line.takeWhile (· != '\n') :=
    List.takeWhile_cons_of_pos hfeed
  have htrim : trim (c :: line.takeWhile (· != '\n')) =
      c :: trimRight (line.takeWhile (· != '\n')) := trim_append_cons hc [] _
  rw [hleft, hline]
  refine ⟨?_, ⟨c, by rw [htrim]; rfl, hc⟩, ?_⟩
  · obtain ⟨lead, trail, hsplit, hlead, htrail⟩ := exists_trim (c :: line.takeWhile (· != '\n'))
    refine ⟨above ++ lead, trail, line.dropWhile (· != '\n'), ?_, ?_, htrail, ?_, ?_⟩
    · rw [List.append_assoc above, List.append_assoc above, ← hsplit, hcs, List.append_assoc,
        List.cons_append, List.takeWhile_append_dropWhile]
    · intro d hd
      exact (List.mem_append.mp hd).elim (habove d) (hlead d)
    · intro hm
      have hmem : '\n' ∈ (c :: line).takeWhile (· != '\n') := by
        rw [hline, hsplit, List.append_assoc]
        exact List.mem_append_right lead hm
      simpa using List.mem_takeWhile_imp hmem
    · intro d hd
      have hstop := List.head?_dropWhile_not (· != '\n') line
      rw [hd] at hstop
      simpa using hstop
  · cases hlast : (trim (c :: line.takeWhile (· != '\n'))).getLast? with
    | none =>
      rw [List.getLast?_eq_none_iff, htrim] at hlast
      cases hlast
    | some d => exact ⟨d, rfl, getLast?_trim _ d hlast⟩

/-- A text that is rejected can be read up to some place, and what stands before it is accepted
by itself. Nothing begins there, and the first line from there is what the message quotes. -/
theorem exists_unreadable {text : String} {e : Error} (h : ofText text = .error e) :
    ∃ before rest : String, text = before ++ rest ∧
      ofText before = .ok (ofItems (items text.toList).1) ∧ Unreadable rest.toList ∧
      ∃ (line : List Char) (shown : String), FirstLine rest.toList line ∧
        (line.length ≤ 40 → shown = String.ofList line) ∧
        (40 < line.length → shown = String.ofList (line.take 40) ++ "...") ∧
        e = .unexpected shown ∧
        e.message = "syntax error in class diagram: unexpected `" ++ shown ++ "`" := by
  obtain ⟨before, hsplit, hbefore, hnone⟩ := items_split text.toList
  simp only [ofText] at h
  split at h
  · cases h
  · next hrest =>
    cases h
    have hblank : ¬ ∀ c ∈ (items text.toList).2, isBlank c = true := by
      intro hall
      have hnil : trimLeft (items text.toList).2 = [] := dropWhile_eq_nil hall
      rw [trim, hnil] at hrest
      exact hrest rfl
    have hshown : ∃ c ∈ (items text.toList).2, isBlank c = false := by simpa using hblank
    refine ⟨String.ofList before, String.ofList (items text.toList).2, ?_, ?_, ?_, ?_⟩
    · rw [← String.ofList_append, ← hsplit, String.ofList_toList]
    · apply ofText_of_items
      rw [String.toList_ofList, hbefore]
    · rw [String.toList_ofList]
      exact unreadable_of_none hnone hshown
    · rw [String.toList_ofList]
      refine ⟨_, complaint (items text.toList).2, firstLine hshown, ?_, ?_, rfl, rfl⟩
      · intro hlen
        exact if_pos hlen
      · intro hlen
        exact if_neg (Nat.not_le.mpr hlen)

/-- A class, a relation, a line that is blank, and a line that cannot be read. -/
def longLine : String :=
  "class A {}\nA --> B : b\n\n  who can read a line as long as this one is?\nclass C {}"

theorem exists_unreadable_longLine :
    ofText longLine = .error (.unexpected "who can read a line as long as this one ...") ∧
      ∃ before rest : String, longLine = before ++ rest ∧
        ofText before =
          .ok ⟨[⟨.concrete, "A", none, [], []⟩], [⟨"A", "B", .association, some "b"⟩]⟩ ∧
        Unreadable rest.toList ∧ ∃ line, FirstLine rest.toList line ∧ 40 < line.length := by
  have hclass (below : List Char) : item? ("class A {}\n".toList ++ below) =
      some (.declared ⟨.concrete, "A", none, [], []⟩, below) := rfl
  have hrelation (below : List Char) : item? ("A --> B : b\n".toList ++ below) =
      some (.related ⟨"A", "B", .association, some "b"⟩, below) := rfl
  have hblank (below : List Char) : item? ('\n' :: below) = some (.silent, below) := rfl
  have hnone (below : List Char) : item? ("  who can ".toList ++ below) = none := rfl
  let unread := "read a line as long as this one is?\nclass C {}".toList
  have hlines : longLine.toList = "class A {}\n".toList ++ ("A --> B : b\n".toList ++
      '\n' :: ("  who can ".toList ++ unread)) := rfl
  have hitems := hlines ▸ items_of_item? (hclass _)
  rw [items_of_item? (hrelation _), items_of_item? (hblank _), items_of_none (hnone _)] at hitems
  have herror : ofText longLine =
      .error (.unexpected "who can read a line as long as this one ...") := by
    simp only [ofText, hitems]
    rfl
  obtain ⟨before, rest, hsplit, hbefore, hrest, line, shown, hline, hshort, -, hshown, -⟩ :=
    exists_unreadable herror
  rw [hitems] at hbefore
  refine ⟨herror, before, rest, hsplit, hbefore, hrest, line, hline, ?_⟩
  by_contra hlen
  have hlen : line.length ≤ 40 := Nat.not_lt.mp hlen
  have htext : line = shown.toList := by rw [hshort hlen, String.toList_ofList]
  cases hshown
  rw [htext] at hlen
  exact absurd hlen (by decide)

end DotDiagram.ClassDiagram
