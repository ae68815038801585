import DotDiagram.Proofs.ClassDiagram.Parts
import DotDiagram.Proofs.Text.Following

/-! What classes and relations are read from, piece by piece. No text is read as either, and
what is left is always the end of what was given. -/

namespace DotDiagram.ClassDiagram

variable {cs rest : List Char}

theorem body?_of_skipGap {inComment : Bool} {c : Char} {line : List Char}
    (h : skipGap cs = c :: line) :
    body? inComment cs =
      if !inComment && c == '}' then some ([], (takeLine line).2)
      else if inComment || opensComment (trim (takeLine (c :: line)).1) then
        body? (!closesComment (trim (takeLine (c :: line)).1)) (takeLine (c :: line)).2
      else (body? false (takeLine (c :: line)).2).map fun read =>
        ((member? (trim (takeLine (c :: line)).1)).toList ++ read.1, read.2) := by
  rw [body?]
  split
  · next hs =>
    rw [h] at hs
    cases hs
  · next d line' hs =>
    rw [h, List.cons.injEq] at hs
    obtain ⟨rfl, rfl⟩ := hs
    dsimp only
    cases body? false (takeLine (c :: line)).2 <;> rfl

theorem body?_of_skipGap_nil (inComment : Bool) (h : skipGap cs = []) :
    body? inComment cs = none := by
  rw [body?]
  split
  · rfl
  · next hs =>
    rw [h] at hs
    cases hs

theorem pieces_of_stereotype? {text : String} (h : stereotype? cs = some (text, rest)) :
    ∃ inner shown, after? "<<".toList cs = some inner ∧
      splitAtFirst? ">>".toList inner = some (shown, rest) ∧ shown.isEmpty = false ∧
      text = String.ofList (trim shown) := by
  unfold stereotype? at h
  split at h
  · cases h
  · next inner hopen =>
    split at h
    · cases h
    · next shown left hclose =>
      split at h
      · cases h
      · next hshown =>
        cases h
        exact ⟨inner, shown, hopen, hclose, Bool.eq_false_iff.mpr hshown, rfl⟩

/-- What a class is read from, piece by piece. -/
theorem pieces_of_class? {c : ClassDecl} (h : class? cs = some (c, rest)) :
    ∃ kind cs₁ cs₂ name cs₃ cs₄ members,
      kind? cs = some (kind, cs₁) ∧ gap? cs₁ = some cs₂ ∧ name? cs₂ = some (name, cs₃) ∧
      after? ['{'] (skipGap (optionalStereotype cs₃).2) = some cs₄ ∧
      members? cs₄ = some (members, rest) ∧
      c = ofMembers kind name (optionalStereotype cs₃).1 members := by
  unfold class? at h
  split at h
  · cases h
  · next kind cs₁ hkind =>
    split at h
    · cases h
    · next name cs₃ hname =>
      obtain ⟨cs₂, hgap, hname⟩ := Option.bind_eq_some_iff.mp hname
      dsimp only at h
      split at h
      · cases h
      · next members left hmembers =>
        obtain ⟨cs₄, hbrace, hmembers⟩ := Option.bind_eq_some_iff.mp hmembers
        cases h
        exact ⟨kind, cs₁, cs₂, name, cs₃, cs₄, members, hkind, hgap, hname, hbrace, hmembers, rfl⟩

/-- What a relation is read from, piece by piece. -/
theorem pieces_of_relation? {r : Relation} (h : relation? cs = some (r, rest)) :
    ∃ left cs₁ kind reversed cs₂ right cs₃,
      name? cs = some (left, cs₁) ∧ arrow? (skipGap cs₁) = some ((kind, reversed), cs₂) ∧
      name? (skipGap cs₂) = some (right, cs₃) ∧
      (r = let (source, target) := if reversed then (right, left) else (left, right)
        ⟨source, target, kind, (optionalLabel cs₃).1⟩) ∧
      rest = skipLineEnd (skipGap (optionalLabel cs₃).2) := by
  unfold relation? at h
  split at h
  · cases h
  · next left cs₁ hleft =>
    split at h
    · cases h
    · next kind reversed cs₂ harrow =>
      split at h
      · cases h
      · next right cs₃ hright =>
        cases h
        exact ⟨left, cs₁, kind, reversed, cs₂, right, cs₃, hleft, harrow, hright, rfl, rfl⟩

theorem isNameChar_of_isLower {c : Char} (h : c.toLower.isLower = true) : isNameChar c = true := by
  have hletter : (c.isUpper = true ∨ c.isLower = true) ∧ c.val ≤ 'z'.val := by
    unfold Char.toLower at h
    split at h
    · next hu => exact ⟨.inl (decide_eq_true hu), UInt32.le_trans hu.2 (by decide)⟩
    · exact ⟨.inr h, of_decide_eq_true (Bool.and_eq_true_iff.mp h).2⟩
  obtain ⟨hcase, hz⟩ := hletter
  have hletters : c.isAlpha = true := Bool.or_eq_true_iff.mpr hcase
  have halpha : c.isAlphanum = true := Bool.or_eq_true_iff.mpr (.inl hletters)
  have hsmall : c.toNat < 128 := Nat.lt_of_le_of_lt (UInt32.le_iff_toNat_le.mp hz) (by decide)
  rw [isNameChar, isLetterOrDigit_of_isAlphanum halpha hsmall]
  rfl

theorem isNameChar_of_afterIgnoringCase? {w : Char} {ws left : List Char}
    (hw : w.isLower = true) (h : afterIgnoringCase? (w :: ws) cs = some left) :
    ∃ c cs', cs = c :: cs' ∧ c.toLower = w ∧ isNameChar c = true ∧
      afterIgnoringCase? ws cs' = some left := by
  cases cs with
  | nil => cases h
  | cons c cs =>
    rw [afterIgnoringCase?] at h
    split at h
    · next heq => exact ⟨c, cs, rfl, heq, isNameChar_of_isLower (heq ▸ hw), h⟩
    · cases h

/-- A keyword that a name ends with is the name. -/
theorem dropWhile_of_afterIgnoringCase? {word left : List Char}
    (hw : word.all Char.isLower = true) (h : afterIgnoringCase? word cs = some left)
    (hl : ∀ c ∈ left.head?, isNameChar c = false) : cs.dropWhile isNameChar = left := by
  induction word generalizing cs with
  | nil =>
    obtain rfl := Option.some.inj h
    exact dropWhile_of_head? hl
  | cons w ws ih =>
    rw [List.all_cons, Bool.and_eq_true] at hw
    obtain ⟨c, cs, rfl, -, hc, hrest⟩ := isNameChar_of_afterIgnoringCase? hw.1 h
    rw [List.dropWhile_cons_of_pos hc]
    exact ih hw.2 hrest

theorem head?_of_gap? {left : List Char} (h : gap? cs = some left) :
    (∀ c ∈ cs.head?, isNameChar c = false) ∧ left = skipGap cs := by
  cases cs with
  | nil => cases h
  | cons c cs =>
    rw [gap?] at h
    split at h
    · next hc =>
      refine ⟨not_of_mem_head? ?_ cs, ?_⟩
      · rcases isGap_iff.mp hc with rfl | rfl <;> rfl
      · rw [skipGap, List.dropWhile_cons_of_pos hc]
        exact (Option.some.inj h).symm
    · cases h

theorem dropWhile_of_name? {name : String} (h : name? cs = some (name, rest)) :
    rest = cs.dropWhile isNameChar := by
  rw [name?] at h
  split at h
  · cases h
  · cases h
    rfl

theorem eq_of_arrow? {meaning : RelationKind × Bool} (h : arrow? cs = some (meaning, rest)) :
    ∃ word, (word, meaning) ∈ arrows ∧ cs = word.toList ++ rest := by
  obtain ⟨⟨word, found⟩, hmem, ha⟩ := List.exists_of_findSome?_eq_some h
  obtain ⟨left, hleft, heq⟩ := Option.map_eq_some_iff.mp ha
  cases heq
  exact ⟨word, hmem, eq_of_after? hleft⟩

/-- Of the arrows only one begins like a name. -/
theorem head?_of_arrow? {meaning : RelationKind × Bool} (h : arrow? cs = some (meaning, rest)) :
    cs = "o--".toList ++ rest ∨ ∃ c left, cs = c :: left ∧ isNameChar c = false := by
  have hall : (arrows.all fun arrow => arrow.1 == "o--" ||
      (arrow.1.toList.head?.any fun c => !isNameChar c)) = true := by decide
  obtain ⟨word, hmem, rfl⟩ := eq_of_arrow? h
  have harrow := List.all_eq_true.mp hall _ hmem
  rw [Bool.or_eq_true, beq_iff_eq] at harrow
  rcases harrow with rfl | hfirst
  · exact .inl rfl
  · cases hw : word.toList with
    | nil => simp [hw] at hfirst
    | cons c cs => exact .inr ⟨c, cs ++ rest, rfl, by simpa [hw] using hfirst⟩

theorem name?_of_not {c : Char} (hc : isNameChar c = false) (cs : List Char) :
    name? (c :: cs) = none := by
  simp [name?, hc]

theorem keyword_of_kind? {kind : ClassKind} (h : kind? cs = some (kind, rest)) :
    abstractWords? cs = some rest ∨
      ∃ word : List Char, word ≠ [] ∧ word.all Char.isLower = true ∧
        afterIgnoringCase? word cs = some rest := by
  unfold kind? at h
  split at h
  · next left ha =>
    cases h
    exact .inl ha
  · split at h
    · next left hw =>
      cases h
      exact .inr ⟨_, by decide, by decide, hw⟩
    · split at h
      · next left hw =>
        cases h
        exact .inr ⟨_, by decide, by decide, hw⟩
      · split at h
        · next left hw =>
          cases h
          exact .inr ⟨_, by decide, by decide, hw⟩
        · cases h

/-- What is read as a relation begins like no class. -/
theorem class?_of_relation? {r : Relation} (h : relation? cs = some (r, rest)) :
    class? cs = none := by
  obtain ⟨left, cs₁, kind, reversed, cs₂, -, -, hleft, harrow, -⟩ := pieces_of_relation? h
  obtain rfl := dropWhile_of_name? hleft
  cases hclass : class? cs with
  | none => rfl
  | some read =>
    obtain ⟨kind, ds₁, ds₂, name, ds₃, ds₄, -, hkind, hgap, hname, hbrace, -⟩ :=
      pieces_of_class? hclass
    obtain ⟨hhead, rfl⟩ := head?_of_gap? hgap
    rcases keyword_of_kind? hkind with habstract | ⟨word, -, hlower, hword⟩
    · simp only [abstractWords?, Option.bind_eq_some_iff] at habstract
      obtain ⟨es₁, hfirst, es₂, hgap', hsecond⟩ := habstract
      obtain ⟨hhead', rfl⟩ := head?_of_gap? hgap'
      rw [dropWhile_of_afterIgnoringCase? (by decide) hfirst hhead'] at harrow
      rcases head?_of_arrow? harrow with ho | ⟨c, left, hcs, hc⟩
      · rw [ho] at hsecond
        cases hsecond
      · obtain ⟨d, ds, hds, -, hd, -⟩ := isNameChar_of_afterIgnoringCase? (by decide) hsecond
        obtain ⟨rfl, -⟩ := List.cons_eq_cons.mp (hcs.symm.trans hds)
        rw [hc] at hd
        cases hd
    · rw [dropWhile_of_afterIgnoringCase? hlower hword hhead] at harrow
      rcases head?_of_arrow? harrow with ho | ⟨c, left, hcs, hc⟩
      · -- `o--` could be taken for a name, but no brace follows it
        have ho' : name? ("o--".toList ++ cs₂) = some ("o", '-' :: '-' :: cs₂) := rfl
        rw [ho, ho'] at hname
        cases hname
        cases hbrace
      · rw [hcs, name?_of_not hc] at hname
        cases hname

theorem exists_cons_of_class? {c : ClassDecl} (h : class? cs = some (c, rest)) :
    ∃ d ds, cs = d :: ds ∧ isNameChar d = true := by
  obtain ⟨kind, ds, -, -, -, -, -, hkind, -⟩ := pieces_of_class? h
  rcases keyword_of_kind? hkind with habstract | ⟨word, hword, hlower, hread⟩
  · obtain ⟨left, hfirst, -⟩ := Option.bind_eq_some_iff.mp habstract
    obtain ⟨d, ds, hds, -, hd, -⟩ := isNameChar_of_afterIgnoringCase? (by decide) hfirst
    exact ⟨d, ds, hds, hd⟩
  · cases word with
    | nil => exact absurd rfl hword
    | cons w ws =>
      rw [List.all_cons, Bool.and_eq_true] at hlower
      obtain ⟨d, ds, hds, -, hd, -⟩ := isNameChar_of_afterIgnoringCase? hlower.1 hread
      exact ⟨d, ds, hds, hd⟩

theorem exists_cons_of_relation? {r : Relation} (h : relation? cs = some (r, rest)) :
    ∃ d ds, cs = d :: ds ∧ isNameChar d = true := by
  obtain ⟨left, ds, -, -, -, -, -, hleft, -⟩ := pieces_of_relation? h
  cases cs with
  | nil => cases hleft
  | cons d ds =>
    cases hd : isNameChar d with
    | true => exact ⟨d, ds, rfl, hd⟩
    | false =>
      rw [name?_of_not hd] at hleft
      cases hleft

theorem suffix_of_gap? (h : gap? cs = some rest) : rest <:+ cs :=
  (head?_of_gap? h).2 ▸ suffix_skipGap cs

theorem suffix_of_name? {name : String} (h : name? cs = some (name, rest)) : rest <:+ cs :=
  dropWhile_of_name? h ▸ List.dropWhile_suffix _

theorem suffix_of_kind? {kind : ClassKind} (h : kind? cs = some (kind, rest)) : rest <:+ cs := by
  rcases keyword_of_kind? h with habstract | ⟨word, -, -, hword⟩
  · simp only [abstractWords?, Option.bind_eq_some_iff] at habstract
    obtain ⟨first, hfirst, second, hgap, hsecond⟩ := habstract
    exact (suffix_of_afterIgnoringCase? hsecond).trans
      ((suffix_of_gap? hgap).trans (suffix_of_afterIgnoringCase? hfirst))
  · exact suffix_of_afterIgnoringCase? hword

theorem suffix_of_stereotype? {text : String} (h : stereotype? cs = some (text, rest)) :
    rest <:+ cs := by
  obtain ⟨inner, shown, hopen, hclose, -, -⟩ := pieces_of_stereotype? h
  exact (suffix_of_splitAtFirst? hclose).trans (suffix_of_after? hopen)

theorem suffix_optionalStereotype (cs : List Char) : (optionalStereotype cs).2 <:+ cs := by
  unfold optionalStereotype
  split
  · next h => exact (suffix_of_stereotype? h).trans (suffix_skipGap cs)
  · exact List.suffix_refl cs

theorem suffix_of_body? {inComment : Bool} {members : List String}
    (h : body? inComment cs = some (members, rest)) : rest <:+ cs := by
  fun_induction body? inComment cs generalizing members rest with
  | case1 => cases h
  | case2 inComment cs c line hs =>
    cases h
    have hline : line <:+ skipGap cs := hs ▸ List.suffix_cons c line
    exact (suffix_takeLine line).trans (hline.trans (suffix_skipGap cs))
  | case3 inComment cs c line hs _ text left =>
    rename_i ih
    have hleft : left <:+ skipGap cs := hs ▸ suffix_takeLine (c :: line)
    exact (ih h).trans (hleft.trans (suffix_skipGap cs))
  | case4 => cases h
  | case5 inComment cs c line hs _ text left =>
    rename_i read rest' hread ih
    cases h
    have hleft : left <:+ skipGap cs := hs ▸ suffix_takeLine (c :: line)
    exact (ih hread).trans (hleft.trans (suffix_skipGap cs))

theorem suffix_of_members? {members : List String} (h : members? cs = some (members, rest)) :
    rest <:+ cs := by
  simp only [members?] at h
  split at h
  · cases h
    exact suffix_takeLine cs
  · exact (suffix_of_body? h).trans (suffix_takeLine cs)

theorem suffix_of_class? {c : ClassDecl} (h : class? cs = some (c, rest)) : rest <:+ cs := by
  obtain ⟨kind, cs₁, cs₂, name, cs₃, cs₄, members, hkind, hgap, hname, hbrace, hmembers, -⟩ :=
    pieces_of_class? h
  have hhead : cs₃ <:+ cs :=
    (suffix_of_name? hname).trans ((suffix_of_gap? hgap).trans (suffix_of_kind? hkind))
  have hopened : cs₄ <:+ cs₃ := (suffix_of_after? hbrace).trans
    ((suffix_skipGap _).trans (suffix_optionalStereotype cs₃))
  exact (suffix_of_members? hmembers).trans (hopened.trans hhead)

theorem suffix_of_arrow? {meaning : RelationKind × Bool} (h : arrow? cs = some (meaning, rest)) :
    rest <:+ cs := by
  obtain ⟨word, -, rfl⟩ := eq_of_arrow? h
  exact List.suffix_append word.toList rest

theorem suffix_optionalLabel (cs : List Char) : (optionalLabel cs).2 <:+ cs := by
  unfold optionalLabel
  split
  · next text rest h =>
    unfold label? at h
    split at h
    · cases h
    · next left hcolon =>
      dsimp only at h
      split at h
      · cases h
      · cases h
        exact (List.dropWhile_suffix _).trans ((suffix_skipGap left).trans
          ((suffix_of_after? hcolon).trans (suffix_skipGap cs)))
  · exact List.suffix_refl cs

theorem suffix_skipLineEnd (cs : List Char) : skipLineEnd cs <:+ cs := by
  unfold skipLineEnd
  cases h : lineEnd? cs with
  | none => exact List.suffix_refl cs
  | some rest => exact suffix_of_lineEnd? h

theorem suffix_of_relation? {r : Relation} (h : relation? cs = some (r, rest)) : rest <:+ cs := by
  obtain ⟨left, cs₁, kind, reversed, cs₂, right, cs₃, hleft, harrow, hright, -, rfl⟩ :=
    pieces_of_relation? h
  have hsource : cs₂ <:+ cs :=
    (suffix_of_arrow? harrow).trans ((suffix_skipGap cs₁).trans (suffix_of_name? hleft))
  have htarget : cs₃ <:+ cs₂ := (suffix_of_name? hright).trans (suffix_skipGap cs₂)
  have hlabel := (suffix_skipGap (optionalLabel cs₃).2).trans (suffix_optionalLabel cs₃)
  exact (suffix_skipLineEnd _).trans (hlabel.trans (htarget.trans hsource))

/-- The ways in which a line says nothing. -/
theorem cases_of_silent? (h : silent? cs = some rest) :
    lineEnd? cs = some rest ∨
      (∃ c line, (c = '\'' ∨ c = '@') ∧ cs = c :: line ∧ rest = (takeLine line).2) ∨
      ∃ line text left, cs = '/' :: '\'' :: line ∧
        splitAtFirst? "'/".toList line = some (text, left) ∧ rest = (takeLine left).2 := by
  unfold silent? at h
  split at h
  · next left hl =>
    cases h
    exact .inl hl
  · refine .inr ?_
    split at h
    · next line _ =>
      cases h
      exact .inl ⟨'\'', line, .inl rfl, rfl, rfl⟩
    · next line _ =>
      obtain ⟨⟨text, left⟩, hs, heq⟩ := Option.map_eq_some_iff.mp h
      exact .inr ⟨line, text, left, rfl, hs, heq.symm⟩
    · next line _ =>
      cases h
      exact .inl ⟨'@', line, .inr rfl, rfl, rfl⟩
    · cases h

theorem suffix_of_silent? (h : silent? cs = some rest) : rest <:+ cs := by
  rcases cases_of_silent? h with hl | ⟨c, line, -, rfl, rfl⟩ | ⟨line, text, left, rfl, hs, rfl⟩
  · exact suffix_of_lineEnd? hl
  · exact (suffix_takeLine line).trans (List.suffix_cons c line)
  · exact (suffix_takeLine left).trans ((suffix_of_splitAtFirst? hs).trans
      (List.suffix_append ['/', '\''] line))

theorem cases_of_itemAt? {item : Item} (h : itemAt? cs = some (item, rest)) :
    (item = .silent ∧ silent? cs = some rest) ∨
      (∃ c, item = .declared c ∧ class? cs = some (c, rest)) ∨
      ∃ r, item = .related r ∧ relation? cs = some (r, rest) := by
  unfold itemAt? at h
  split at h
  · next left hs =>
    cases h
    exact .inl ⟨rfl, hs⟩
  · split at h
    · next c left hc =>
      cases h
      exact .inr (.inl ⟨c, rfl, hc⟩)
    · split at h
      · next r left hr =>
        cases h
        exact .inr (.inr ⟨r, rfl, hr⟩)
      · cases h

theorem itemAt?_of_silent? (h : silent? cs = some rest) : itemAt? cs = some (.silent, rest) := by
  rw [itemAt?, h]

theorem itemAt?_of_class? {c : ClassDecl} (h : class? cs = some (c, rest)) :
    itemAt? cs = some (.declared c, rest) := by
  obtain ⟨d, ds, hd, hname⟩ := exists_cons_of_class? h
  have hsilent : silent? cs = none := hd ▸ silent?_cons (not_mark_of_isNameChar hname) ds
  rw [itemAt?, hsilent, h]

theorem itemAt?_of_relation? {r : Relation} (h : relation? cs = some (r, rest)) :
    itemAt? cs = some (.related r, rest) := by
  obtain ⟨d, ds, hd, hname⟩ := exists_cons_of_relation? h
  have hsilent : silent? cs = none := hd ▸ silent?_cons (not_mark_of_isNameChar hname) ds
  rw [itemAt?, hsilent, class?_of_relation? h, h]

theorem suffix_of_itemAt? {item : Item} (h : itemAt? cs = some (item, rest)) : rest <:+ cs := by
  rcases cases_of_itemAt? h with ⟨-, hs⟩ | ⟨c, -, hc⟩ | ⟨r, -, hr⟩
  · exact suffix_of_silent? hs
  · exact suffix_of_class? hc
  · exact suffix_of_relation? hr

theorem suffix_of_item? {item : Item} (h : item? cs = some (item, rest)) : rest <:+ cs :=
  (suffix_of_itemAt? h).trans (suffix_skipGap cs)

section

variable {change : List Char → List Char} (h : Linewise change) (cs : List Char)
include h

theorem gap?_linewise : gap? (change cs) = (gap? cs).map change := by
  have heq : ∀ cs, gap? cs = if (cs.takeWhile isGap).isEmpty then none else some (skipGap cs) := by
    intro cs
    cases cs with
    | nil => rfl
    | cons c cs => cases hc : isGap c <;> simp [gap?, skipGap, hc]
  rw [heq, heq, h.takeWhile_eq rfl rfl, h.skipGap_eq]
  split <;> rfl

theorem name?_linewise : name? (change cs) = (name? cs).map fun read => (read.1, change read.2) := by
  have hfeed : isNameChar '\n' = false := rfl
  have hreturn : isNameChar '\r' = false := rfl
  simp only [name?, h.takeWhile_eq hfeed hreturn, h.dropWhile_eq hfeed hreturn]
  split <;> rfl

theorem abstractWords?_linewise :
    abstractWords? (change cs) = (abstractWords? cs).map change := by
  rw [abstractWords?, abstractWords?, h.afterIgnoringCase_eq (by decide) (by decide)]
  cases afterIgnoringCase? "abstract".toList cs with
  | none => rfl
  | some left =>
    rw [Option.map_some, Option.bind_some, Option.bind_some, gap?_linewise h]
    cases gap? left with
    | none => rfl
    | some left => exact h.afterIgnoringCase_eq (by decide) (by decide) left

theorem kind?_linewise : kind? (change cs) = (kind? cs).map fun read => (read.1, change read.2) := by
  have hword : ∀ word ∈ ["class".toList, "interface".toList, "enum".toList],
      afterIgnoringCase? word (change cs) = (afterIgnoringCase? word cs).map change := by
    intro word hmem
    have hlower : ∀ word ∈ ["class".toList, "interface".toList, "enum".toList],
        '\n' ∉ word ∧ '\r' ∉ word := by decide
    exact h.afterIgnoringCase_eq (hlower word hmem).1 (hlower word hmem).2 cs
  rw [List.forall_mem_cons, List.forall_mem_cons, List.forall_mem_singleton] at hword
  obtain ⟨hclass, hinterface, henum⟩ := hword
  simp only [kind?, abstractWords?_linewise h, hclass, hinterface, henum]
  cases abstractWords? cs with
  | some left => rfl
  | none =>
    cases afterIgnoringCase? "class".toList cs with
    | some left => rfl
    | none =>
      cases afterIgnoringCase? "interface".toList cs with
      | some left => rfl
      | none => cases afterIgnoringCase? "enum".toList cs <;> rfl

theorem arrow?_linewise :
    arrow? (change cs) = (arrow? cs).map fun read => (read.1, change read.2) := by
  have hwords : ∀ arrow ∈ arrows, '\n' ∉ arrow.1.toList ∧ '\r' ∉ arrow.1.toList := by decide
  unfold arrow?
  generalize arrows = all at hwords
  induction all with
  | nil => rfl
  | cons arrow rest ih =>
    obtain ⟨⟨hfeed, hreturn⟩, hrest⟩ := List.forall_mem_cons.mp hwords
    obtain ⟨word, meaning⟩ := arrow
    simp only [List.findSome?_cons, ih hrest, h.after_eq hfeed hreturn]
    cases after? word.toList cs <;> rfl

end

end DotDiagram.ClassDiagram
