import DotDiagram.Proofs.ClassDiagram.Written
import DotDiagram.Proofs.Text.Scan

/-! The parts of what is written: names, blanks, phrases, keywords and the ends of lines.
Each is read just as far as it reaches, whatever follows. -/

namespace DotDiagram.ClassDiagram

variable {rest : List Char}

theorem isGap_of_isNameChar {c : Char} (h : isNameChar c = true) : isGap c = false := by
  apply Bool.eq_false_iff.mpr
  intro hg
  rcases isGap_iff.mp hg with rfl | rfl
  · exact absurd h (by decide)
  · exact absurd h (by decide)

theorem isNameChar_of_isGap {c : Char} (h : isGap c = true) : isNameChar c = false := by
  apply Bool.eq_false_iff.mpr
  intro hn
  rw [isGap_of_isNameChar hn] at h
  cases h

theorem Gap.exists_cons (gap : Gap) : ∃ c cs, gap.chars = c :: cs ∧ isGap c = true := by
  obtain ⟨⟨chars, gaps⟩, nonempty⟩ := gap
  cases chars with
  | nil => exact absurd rfl nonempty
  | cons c cs => exact ⟨c, cs, rfl, gaps c List.mem_cons_self⟩

theorem gap?_append (gap : Gap) : gap? (gap.chars ++ rest) = some (skipGap rest) := by
  obtain ⟨c, cs, hchars, hc⟩ := gap.exists_cons
  have hcs : ∀ d ∈ cs, isGap d = true :=
    fun d hd => gap.gaps d (hchars ▸ List.mem_cons_of_mem c hd)
  rw [hchars, List.cons_append, gap?, if_pos hc, skipGap_append hcs]

theorem Blanks.head?_append (blanks : Blanks) {p : Char → Bool}
    (hg : ∀ c, isGap c = true → p c = false) (hr : ∀ c ∈ rest.head?, p c = false) :
    ∀ c ∈ (blanks.chars ++ rest).head?, p c = false := by
  obtain ⟨chars, gaps⟩ := blanks
  cases chars with
  | nil => exact hr
  | cons b bs => exact not_of_mem_head? (hg b (gaps b List.mem_cons_self)) _

theorem Name.exists_cons (name : Name) :
    ∃ c cs, name.chars = c :: cs ∧ isNameChar c = true := by
  obtain ⟨chars, nonempty, named⟩ := name
  cases chars with
  | nil => exact absurd rfl nonempty
  | cons c cs => exact ⟨c, cs, rfl, named c List.mem_cons_self⟩

theorem name?_append (name : Name) (hr : ∀ c ∈ rest.head?, isNameChar c = false) :
    name? (name.chars ++ rest) = some (name.text, rest) := by
  have hne : name.chars.isEmpty = false := by
    obtain ⟨c, cs, hchars, -⟩ := name.exists_cons
    rw [hchars]
    rfl
  rw [name?, takeWhile_append_of_head? name.named hr, dropWhile_append_of_head? name.named hr]
  simp only [hne]
  rfl

theorem skipGap_name (name : Name) : skipGap (name.chars ++ rest) = name.chars ++ rest := by
  obtain ⟨c, cs, hchars, hc⟩ := name.exists_cons
  rw [hchars]
  exact skipGap_cons (isGap_of_isNameChar hc) _

namespace LineEnd

theorem isBlank_of_mem_before (e : LineEnd) : ∀ c ∈ e.before, isBlank c = true := by
  intro c hc
  rcases List.mem_append.mp hc with hc | hc
  · exact isBlank_of_isGap (e.blanks.gaps c hc)
  · cases hcr : e.carriage with
    | false => simp [hcr] at hc
    | true =>
      rw [hcr, if_pos rfl, List.mem_singleton] at hc
      rw [hc]
      rfl

theorem not_mem_before (e : LineEnd) : '\n' ∉ e.before := by
  intro hm
  rcases List.mem_append.mp hm with hm | hm
  · exact absurd (e.blanks.gaps _ hm) (by decide)
  · cases hcr : e.carriage <;> simp [hcr] at hm

theorem append_chars (e : LineEnd) (line : List Char) :
    line ++ (e.chars ++ rest) = (line ++ e.before) ++ '\n' :: rest := by
  simp [chars]

theorem not_mem_line (e : LineEnd) {line : List Char} (hl : '\n' ∉ line) :
    '\n' ∉ line ++ e.before := by
  intro hm
  rcases List.mem_append.mp hm with hm | hm
  · exact hl hm
  · exact e.not_mem_before hm

theorem takeLine_append (e : LineEnd) {line : List Char} (hl : '\n' ∉ line) :
    takeLine (line ++ (e.chars ++ rest)) = (line ++ e.before, rest) := by
  rw [append_chars]
  exact DotDiagram.takeLine_append (e.not_mem_line hl) rest

theorem skipGap_chars (e : LineEnd) : skipGap (e.chars ++ rest) =
    (if e.carriage then ['\r'] else []) ++ '\n' :: rest := by
  rw [chars, before, List.append_assoc, List.append_assoc, skipGap_append e.blanks.gaps]
  cases e.carriage <;> rfl

theorem lineEnd?_skipGap (e : LineEnd) : lineEnd? (skipGap (e.chars ++ rest)) = some rest := by
  rw [skipGap_chars]
  cases e.carriage <;> rfl

theorem head?_append (e : LineEnd) {p : Char → Bool} (hg : ∀ c, isGap c = true → p c = false)
    (hr : p '\r' = false) (hn : p '\n' = false) :
    ∀ c ∈ (e.chars ++ rest).head?, p c = false := by
  rw [chars, before, List.append_assoc, List.append_assoc]
  apply e.blanks.head?_append hg
  cases e.carriage with
  | false => exact not_of_mem_head? hn rest
  | true => exact not_of_mem_head? hr ('\n' :: rest)

end LineEnd

namespace Phrase

theorem trim_line (phrase : Phrase) (e : LineEnd) :
    trim (phrase.chars ++ e.before) = phrase.chars := by
  have hnil : ∀ c ∈ ([] : List Char), isBlank c = true := nofun
  exact trim_append hnil phrase.trimmed e.isBlank_of_mem_before

theorem exists_cons (phrase : Phrase) : ∃ c cs, phrase.chars = c :: cs ∧ isBlank c = false := by
  obtain ⟨chars, nonempty, trimmed, -⟩ := phrase
  cases chars with
  | nil => exact absurd rfl nonempty
  | cons c cs => exact ⟨c, cs, rfl, isBlank_of_trim_cons trimmed⟩

theorem skipGap_append (phrase : Phrase) :
    skipGap (phrase.chars ++ rest) = phrase.chars ++ rest := by
  obtain ⟨c, cs, hchars, hc⟩ := phrase.exists_cons
  have hgap : isGap c = false := by
    apply Bool.eq_false_iff.mpr
    intro hg
    rw [isBlank_of_isGap hg] at hc
    cases hc
  rw [hchars]
  exact skipGap_cons hgap _

end Phrase

/-- With these a line begins that says nothing, or a gap. -/
def marks : List Char := ['\n', '\r', '\'', '/', '@', ' ', '\t']

theorem isGap_of_not_mark {c : Char} (hc : c ∉ marks) : isGap c = false := by
  apply Bool.eq_false_iff.mpr
  intro hg
  rcases isGap_iff.mp hg with rfl | rfl
  · exact hc (by decide)
  · exact hc (by decide)

theorem not_mark_of_isNameChar {c : Char} (h : isNameChar c = true) : c ∉ marks := by
  intro hm
  have hall : (marks.all fun d => !isNameChar d) = true := rfl
  have hnot := List.all_eq_true.mp hall c hm
  rw [h] at hnot
  cases hnot

theorem silent?_of_ne {c : Char} (hfeed : c ≠ '\n') (hreturn : c ≠ '\r') (hquote : c ≠ '\'')
    (hslash : c ≠ '/') (hat : c ≠ '@') (cs : List Char) : silent? (c :: cs) = none := by
  unfold silent?
  rw [lineEnd?_of_head? hfeed hreturn]
  simp only
  split
  · next heq => exact absurd (List.cons.inj heq).1 hquote
  · next heq => exact absurd (List.cons.inj heq).1 hslash
  · next heq => exact absurd (List.cons.inj heq).1 hat
  · rfl

theorem silent?_cons {c : Char} (hc : c ∉ marks) (cs : List Char) : silent? (c :: cs) = none := by
  simp only [marks, List.mem_cons, List.not_mem_nil, or_false, not_or] at hc
  obtain ⟨hfeed, hreturn, hquote, hslash, hat, -, -⟩ := hc
  exact silent?_of_ne hfeed hreturn hquote hslash hat cs

theorem silent?_slash {cs : List Char} (h : cs.head? ≠ some '\'') : silent? ('/' :: cs) = none := by
  cases cs with
  | nil => rfl
  | cons c cs =>
    have hc : c ≠ '\'' := fun heq => h (by rw [heq, List.head?_cons])
    unfold silent?
    rw [lineEnd?_of_head? (by decide) (by decide)]
    simp only
    split
    · next heq => cases heq
    · next heq =>
      cases heq
      exact absurd rfl hc
    · next heq => cases heq
    · rfl

theorem skipGap_of_not_mark {c : Char} {cs text : List Char} (hc : c ∉ marks)
    (ht : text = c :: cs) : skipGap (text ++ rest) = text ++ rest := by
  rw [ht]
  exact skipGap_cons (isGap_of_not_mark hc) _

theorem silent?_of_not_mark {c : Char} {cs text : List Char} (hc : c ∉ marks)
    (ht : text = c :: cs) : silent? (text ++ rest) = none := by
  rw [ht]
  exact silent?_cons hc _

namespace Keyword

variable {word : String}

theorem exists_cons (keyword : Keyword word) (hw : word.toList ≠ []) :
    ∃ c cs, keyword.chars = c :: cs ∧ word.toList.head? = some c.toLower := by
  obtain ⟨w, ws, hword⟩ := List.exists_cons_of_ne_nil hw
  obtain ⟨chars, same⟩ := keyword
  rw [hword] at same
  obtain ⟨c, cs, rfl, hc, -⟩ := List.map_eq_cons_iff.mp same
  exact ⟨c, cs, rfl, by rw [hword, List.head?_cons, hc]⟩

theorem after (keyword : Keyword word) :
    afterIgnoringCase? word.toList (keyword.chars ++ rest) = some rest :=
  afterIgnoringCase?_append keyword.same rest

/-- Keywords are told apart by their first letters. -/
theorem after_other {other : String} (keyword : Keyword word) (hw : word.toList ≠ [])
    (ho : other.toList ≠ []) (hne : word.toList.head? ≠ other.toList.head?) :
    afterIgnoringCase? other.toList (keyword.chars ++ rest) = none := by
  obtain ⟨c, cs, hchars, hc⟩ := keyword.exists_cons hw
  obtain ⟨v, vs, hother⟩ := List.exists_cons_of_ne_nil ho
  rw [hchars, hother, List.cons_append]
  apply afterIgnoringCase?_cons_of_ne
  intro heq
  apply hne
  rw [hc, hother, List.head?_cons, heq]

/-- Marks have no case. -/
theorem exists_cons_not_mark (keyword : Keyword word) (hw : word.toList ≠ [])
    (hm : (marks.all fun c => word.toList.head? != some c.toLower) = true) :
    ∃ c cs, keyword.chars = c :: cs ∧ c ∉ marks := by
  obtain ⟨c, cs, hchars, hc⟩ := keyword.exists_cons hw
  refine ⟨c, cs, hchars, fun h => ?_⟩
  have hne := List.all_eq_true.mp hm c h
  rw [hc, bne_self_eq_false] at hne
  cases hne

end Keyword

theorem KindWords.exists_cons (words : KindWords) :
    ∃ c cs, words.chars = c :: cs ∧ c ∉ marks := by
  cases words with
  | concrete word => exact word.exists_cons_not_mark (by decide) rfl
  | abstract first gap second =>
    obtain ⟨c, cs, hchars, hc⟩ := first.exists_cons_not_mark (by decide) rfl
    exact ⟨c, cs ++ gap.chars ++ second.chars, by simp [chars, hchars], hc⟩
  | interface word => exact word.exists_cons_not_mark (by decide) rfl
  | enumeration word => exact word.exists_cons_not_mark (by decide) rfl

theorem kind?_append (words : KindWords) : kind? (words.chars ++ rest) = some (words.kind, rest) := by
  cases words with
  | concrete word =>
    have ha : afterIgnoringCase? "abstract".toList (word.chars ++ rest) = none :=
      word.after_other (by decide) (by decide) (by decide)
    simp only [KindWords.chars, kind?, abstractWords?, ha, word.after, Option.bind_none]
    rfl
  | abstract first gap second =>
    have hskip : skipGap (second.chars ++ rest) = second.chars ++ rest := by
      obtain ⟨c, cs, hchars, hc⟩ := second.exists_cons_not_mark (by decide) rfl
      rw [hchars]
      exact skipGap_cons (isGap_of_not_mark hc) _
    simp only [KindWords.chars, List.append_assoc, kind?, abstractWords?, first.after,
      Option.bind_some, gap?_append, hskip, second.after]
    rfl
  | interface word =>
    have ha : afterIgnoringCase? "abstract".toList (word.chars ++ rest) = none :=
      word.after_other (by decide) (by decide) (by decide)
    have hc : afterIgnoringCase? "class".toList (word.chars ++ rest) = none :=
      word.after_other (by decide) (by decide) (by decide)
    simp only [KindWords.chars, kind?, abstractWords?, ha, hc, word.after, Option.bind_none]
    rfl
  | enumeration word =>
    have ha : afterIgnoringCase? "abstract".toList (word.chars ++ rest) = none :=
      word.after_other (by decide) (by decide) (by decide)
    have hc : afterIgnoringCase? "class".toList (word.chars ++ rest) = none :=
      word.after_other (by decide) (by decide) (by decide)
    have hi : afterIgnoringCase? "interface".toList (word.chars ++ rest) = none :=
      word.after_other (by decide) (by decide) (by decide)
    simp only [KindWords.chars, kind?, abstractWords?, ha, hc, hi, word.after, Option.bind_none]
    rfl

end DotDiagram.ClassDiagram
