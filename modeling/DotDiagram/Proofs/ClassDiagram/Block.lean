import DotDiagram.Proofs.ClassDiagram.Header

/-! Class blocks are read as they are written: the header with its stereotype, then the
members line by line. -/

namespace DotDiagram.ClassDiagram

variable {rest : List Char}

namespace Stereotype

theorem ne_of_isGap {c : Char} (h : isGap c = true) : c ≠ '>' := by
  rintro rfl
  exact absurd h (by decide)

theorem getLast?_inner (s : Stereotype) : s.inner.getLast? ≠ some '>' := by
  intro hlast
  rw [inner, List.getLast?_append, List.getLast?_append] at hlast
  cases htrail : s.trail.chars.getLast? with
  | some c =>
    rw [htrail, Option.some_or, Option.some.injEq] at hlast
    exact ne_of_isGap (s.trail.gaps c (List.mem_of_getLast? htrail)) hlast
  | none =>
    rw [htrail, Option.none_or] at hlast
    cases hchars : s.chars.getLast? with
    | some c =>
      rw [hchars, Option.some_or] at hlast
      exact s.apart (List.getLast?_eq_none_iff.mp htrail) (hchars.trans hlast)
    | none =>
      rw [hchars, Option.none_or] at hlast
      exact ne_of_isGap (s.lead.gaps _ (List.mem_of_getLast? hlast)) rfl

/-- The first closing mark is the one written. -/
theorem not_infix_inner (s : Stereotype) : ¬ ['>', '>'] <:+: s.inner ++ ['>'] := by
  intro h
  rcases List.infix_concat_iff.mp h with hsuffix | hinfix
  · obtain ⟨before, hb⟩ := hsuffix
    have hinner : before ++ ['>'] = s.inner := by
      have hcancel : (before ++ ['>']) ++ ['>'] = s.inner ++ ['>'] := by
        rw [← hb, List.append_assoc]
        rfl
      exact List.append_cancel_right hcancel
    apply s.getLast?_inner
    rw [← hinner, List.getLast?_append]
    rfl
  · have hleft := infix_of_append_right (fun c hc => ne_of_isGap (s.trail.gaps c hc)) hinfix
    exact s.free (infix_of_append_left (fun c hc => ne_of_isGap (s.lead.gaps c hc)) hleft)

def bracketed (s : Stereotype) : Bracketed := ⟨s.inner, s.shown, s.not_infix_inner⟩

theorem trim_inner (s : Stereotype) : trim s.inner = s.chars :=
  trim_append (fun c hc => isBlank_of_isGap (s.lead.gaps c hc)) s.trimmed
    fun c hc => isBlank_of_isGap (s.trail.gaps c hc)

end Stereotype

theorem body?_close {cs : List Char} (h : skipGap cs = '}' :: rest) :
    body? false cs = some ([], (takeLine rest).2) := by
  rw [body?_of_skipGap h]
  rfl

theorem body?_member {cs line below : List Char} {c : Char} (h : skipGap cs = c :: rest)
    (hc : c ≠ '}') (ht : takeLine (c :: rest) = (line, below))
    (hl : opensComment (trim line) = false) :
    body? false cs = (body? false below).map fun read =>
      ((member? (trim line)).toList ++ read.1, read.2) := by
  simp [body?_of_skipGap h, hc, ht, hl]

theorem opensComment_member (member : Member) : opensComment member.chars = false := by
  apply Bool.eq_false_iff.mpr
  intro h
  exact member.noBlockComment (List.isPrefixOf_iff_prefix.mp h)

theorem member?_chars (member : Member) : member? member.chars = some member.text := by
  obtain ⟨c, cs, hchars, -⟩ := member.exists_cons
  have hc : c ≠ '\'' := by
    rintro rfl
    exact member.noComment (by rw [hchars, List.head?_cons])
  rw [Phrase.text, hchars]
  unfold member?
  split
  · next heq => cases heq
  · next heq => exact absurd (List.cons.inj heq).1 hc
  · rfl

theorem body?_lines (lines : List MemberLine) (indent : Blanks) (e : LineEnd) :
    body? false (lines.flatMap MemberLine.chars ++ (indent.chars ++ '}' :: (e.chars ++ rest))) =
      some (lines.map fun line => line.member.text, rest) := by
  induction lines with
  | nil =>
    have hskip : skipGap (indent.chars ++ '}' :: (e.chars ++ rest)) = '}' :: (e.chars ++ rest) :=
      skipGap_append indent.gaps
    have hline : takeLine ([] ++ (e.chars ++ rest)) = ([] ++ e.before, rest) :=
      e.takeLine_append nofun
    rw [List.flatMap_nil, List.nil_append, body?_close hskip]
    rw [List.nil_append] at hline
    rw [hline]
    rfl
  | cons line lines ih =>
    obtain ⟨c, cs, hchars, -⟩ := line.member.exists_cons
    have hc : c ≠ '}' := by
      rintro rfl
      exact line.member.noEnd (by rw [hchars, List.head?_cons])
    let below := lines.flatMap MemberLine.chars ++ (indent.chars ++ '}' :: (e.chars ++ rest))
    have hcons : line.member.chars ++ (line.lineEnd.chars ++ below) =
        c :: (cs ++ (line.lineEnd.chars ++ below)) := by
      rw [hchars]
      rfl
    have hskip : skipGap ((line :: lines).flatMap MemberLine.chars ++
        (indent.chars ++ '}' :: (e.chars ++ rest))) =
          c :: (cs ++ (line.lineEnd.chars ++ below)) := by
      rw [List.flatMap_cons, MemberLine.chars, List.append_assoc, List.append_assoc,
        List.append_assoc, skipGap_append line.indent.gaps, line.member.skipGap_append, ← hcons]
    have hline : takeLine (line.member.chars ++ (line.lineEnd.chars ++ below)) =
        (line.member.chars ++ line.lineEnd.before, below) :=
      line.lineEnd.takeLine_append line.member.oneLine
    rw [hcons] at hline
    have htrim := line.member.trim_line line.lineEnd
    rw [body?_member hskip hc hline (htrim.symm ▸ opensComment_member line.member), ih, htrim,
      member?_chars]
    rfl

theorem members?_lines (lines : List MemberLine) (indent : Blanks) (head e : LineEnd) :
    members? (head.chars ++ (lines.flatMap MemberLine.chars ++
      (indent.chars ++ '}' :: (e.chars ++ rest)))) =
        some (lines.map fun line => line.member.text, rest) := by
  have hline : takeLine ([] ++ (head.chars ++ (lines.flatMap MemberLine.chars ++
      (indent.chars ++ '}' :: (e.chars ++ rest))))) = ([] ++ head.before, _) :=
    head.takeLine_append nofun
  have htrim : trim head.before = [] := by
    rw [trim, trimLeft, dropWhile_eq_nil head.isBlank_of_mem_before]
    rfl
  rw [List.nil_append, List.nil_append] at hline
  simp only [members?, hline, htrim]
  exact body?_lines lines indent e

namespace ClassBlock

def header (b : ClassBlock) : Header :=
  ⟨b.kind, b.gap, b.name, b.stereotype.map fun s => (s.1, s.2.bracketed), b.space⟩

theorem chars_eq (b : ClassBlock) :
    b.chars = b.header.chars ++ (b.headEnd.chars ++ b.bodyChars) := by
  have hstereotype : b.header.stereotypeChars = b.stereotypeChars := by
    unfold Header.stereotypeChars stereotypeChars header
    cases b.stereotype <;> rfl
  rw [Header.chars_append, hstereotype]
  rfl

theorem header_decl (b : ClassBlock) : b.header.decl b.texts = b.decl := by
  have hstereotype : b.header.stereotype.map (fun s => String.ofList (trim s.2.chars)) =
      b.stereotype.map fun s => s.2.text := by
    simp [header, Stereotype.bracketed, Stereotype.trim_inner, Stereotype.text, Function.comp_def]
  rw [Header.decl, hstereotype]
  rfl

end ClassBlock

theorem class?_append (b : ClassBlock) (e : LineEnd) :
    class? (b.chars ++ (e.chars ++ rest)) = some (b.decl, rest) := by
  have hmembers : members? ((b.headEnd.chars ++ b.bodyChars) ++ (e.chars ++ rest)) =
      some (b.texts, rest) := by
    simpa [ClassBlock.bodyChars, ClassBlock.texts] using members?_lines b.members b.indent b.headEnd e
  rw [b.chars_eq, List.append_assoc, b.header.class?_append, hmembers, Option.map_some,
    b.header_decl]

end DotDiagram.ClassDiagram
