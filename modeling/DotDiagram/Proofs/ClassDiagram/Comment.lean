import DotDiagram.Proofs.ClassDiagram.Body
import DotDiagram.Proofs.ClassDiagram.Joining
import DotDiagram.Proofs.ClassDiagram.Reading

/-! Block comments. Between items a comment ends with its line, wherever in it the closing mark
stands. In the body of a class it ends only with a line that ends with a closing mark; and a
slash alone behind the opening mark is taken for one. -/

namespace DotDiagram.ClassDiagram

variable {line text tail : List Char}

structure BlockComment where
  indent : Blanks
  text : List Char
  free : ¬ ['\'', '/'] <:+: text
  tail : Aside

/-- A line of a body that leaves the reader outside of comments. -/
structure BodyLine where
  chars : List Char
  oneLine : '\n' ∉ chars
  noEnd : (skipGap chars).head? ≠ some '}'
  whole : opensComment (trim chars) = true → closesComment (trim chars) = true

/-- A class up to some place in its body. -/
structure OpenClass where
  header : Header
  behind : Aside
  stays : (trim behind.chars).getLast? ≠ some '}'
  lines : List BodyLine

def BodyLine.written (line : BodyLine) : List Char := line.chars ++ ['\n']

def BodyLine.members (line : BodyLine) : List String :=
  if opensComment (trim line.chars) then [] else (member? (trim line.chars)).toList

theorem BodyLine.body?_append (line : BodyLine) (rest : List Char) :
    body? false (line.written ++ rest) =
      (body? false rest).map fun read => (line.members ++ read.1, read.2) := by
  have hread := body?_line false line.oneLine (fun _ => line.noEnd) rest
  rw [Bool.false_or] at hread
  rw [written, List.append_assoc, List.singleton_append, hread, members]
  split
  · next hopens =>
    rw [line.whole hopens, Bool.not_true]
    cases body? false rest <;> rfl
  · rfl

theorem body?_bodyLines (lines : List BodyLine) (rest : List Char) :
    body? false (lines.flatMap BodyLine.written ++ rest) =
      (body? false rest).map fun read => (lines.flatMap BodyLine.members ++ read.1, read.2) := by
  induction lines with
  | nil =>
    rw [List.flatMap_nil, List.nil_append]
    cases body? false rest <;> rfl
  | cons line lines ih =>
    rw [List.flatMap_cons, List.append_assoc, line.body?_append, ih, Option.map_map]
    simp [Function.comp_def]

namespace OpenClass

def chars (o : OpenClass) : List Char :=
  o.header.chars ++ (o.behind.chars ++ '\n' :: o.lines.flatMap BodyLine.written)

def members (o : OpenClass) : List String := o.lines.flatMap BodyLine.members

theorem chars_append (o : OpenClass) (rest : List Char) :
    o.chars ++ rest = o.header.chars ++ (o.behind.chars ++ '\n' ::
      (o.lines.flatMap BodyLine.written ++ rest)) := by
  simp [chars]

theorem members?_append (o : OpenClass) (rest : List Char) :
    members? (o.behind.chars ++ '\n' :: (o.lines.flatMap BodyLine.written ++ rest)) =
      (body? false rest).map fun read => (o.members ++ read.1, read.2) :=
  (members?_of_open o.behind.oneLine o.stays _).trans (body?_bodyLines o.lines rest)

/-- Only what the body says of the rest counts, also where it is rejected. -/
theorem ofText_congr (o : OpenClass) {cs ds : List Char} (h : body? false cs = body? false ds) :
    ofText (String.ofList (o.chars ++ cs)) = ofText (String.ofList (o.chars ++ ds)) := by
  have hclass : class? (o.chars ++ cs) = class? (o.chars ++ ds) := by
    rw [chars_append, chars_append, o.header.class?_append, o.header.class?_append,
      o.members?_append, o.members?_append, h]
  have hcomplaint : complaint (o.chars ++ cs) = complaint (o.chars ++ ds) := by
    rw [chars_append, chars_append, o.header.complaint_newline, o.header.complaint_newline]
  rw [chars_append, chars_append] at hclass hcomplaint
  rw [chars_append, chars_append, o.header.ofText_append, o.header.ofText_append, hclass, hcomplaint]

theorem diagram?_append (o : OpenClass) (rest : List Char) :
    diagram? (o.chars ++ rest) = (body? false rest).bind fun read =>
      (diagram? read.2).map fun d => ⟨o.header.decl (o.members ++ read.1) :: d.classes, d.relations⟩ := by
  rw [chars_append, o.header.diagram?_append, o.members?_append, Option.bind_map]
  rfl

end OpenClass

theorem closesComment_iff : closesComment line = true ↔ ['\'', '/'] <:+ line :=
  List.isSuffixOf_iff_suffix

theorem suffix_mark_iff {before : List Char} :
    ['\'', '/'] <:+ before ++ '\'' :: '/' :: tail ↔ tail = [] ∨ ['\'', '/'] <:+ tail := by
  constructor
  · intro h
    cases tail with
    | nil => exact .inl rfl
    | cons c cs =>
      have hsplit : before ++ '\'' :: '/' :: c :: cs = (before ++ ['\'']) ++ '/' :: c :: cs := by
        simp
      rw [hsplit] at h
      have hlong := List.suffix_of_suffix_length_le h (List.suffix_append _ _) (by simp)
      rcases List.suffix_cons_iff.mp hlong with heq | hsuffix
      · cases heq
      · exact .inr hsuffix
  · rintro (rfl | h)
    · exact List.suffix_append before ['\'', '/']
    · have hsplit : before ++ '\'' :: '/' :: tail = (before ++ ['\'', '/']) ++ tail := by simp
      rw [hsplit]
      exact h.trans (List.suffix_append _ tail)

/-- Behind the closing mark stands nothing but white space, or another one ends the line. -/
def Ends (tail : List Char) : Prop := trimRight tail = [] ∨ ['\'', '/'] <:+ trimRight tail

instance : Decidable (Ends tail) := inferInstanceAs (Decidable (_ ∨ _))

theorem trimRight_mark (before tail : List Char) :
    trimRight (before ++ '\'' :: '/' :: tail) = before ++ '\'' :: '/' :: trimRight tail := by
  have hslash : isBlank '/' = false := by decide
  have hsplit : before ++ '\'' :: '/' :: tail = (before ++ ['\'']) ++ '/' :: tail := by simp
  rw [hsplit, trimRight_append_cons hslash, List.append_assoc]
  rfl

theorem trim_mark (before tail : List Char) :
    trim (before ++ '\'' :: '/' :: tail) = trimLeft before ++ '\'' :: '/' :: trimRight tail := by
  have hquote : isBlank '\'' = false := by decide
  rw [trim, trimLeft_append_cons hquote, trimRight_mark]

theorem closesComment_mark (before tail : List Char) :
    closesComment (before ++ '\'' :: '/' :: trimRight tail) = decide (Ends tail) := by
  apply Bool.eq_iff_iff.mpr
  rw [closesComment_iff, suffix_mark_iff, decide_eq_true_iff, Ends]

theorem closesComment_of_free (h : ¬ ['\'', '/'] <:+: line) : closesComment (trim line) = false := by
  apply Bool.eq_false_iff.mpr
  intro hcloses
  exact h ((closesComment_iff.mp hcloses).isInfix.trans (infix_trim line))

theorem free_of_append {first below : List Char} {c : Char}
    (h : ¬ ['\'', '/'] <:+: first ++ c :: below) :
    ¬ ['\'', '/'] <:+: first ∧ ¬ ['\'', '/'] <:+: below := by
  refine ⟨fun hi => h (hi.trans (List.prefix_append _ _).isInfix), fun hi => h (hi.trans ?_)⟩
  exact ((List.suffix_cons c below).trans (List.suffix_append _ _)).isInfix

/-- In a comment the reader looks only at the ends of lines. -/
theorem body?_inComment (hfree : ¬ ['\'', '/'] <:+: text) (ht : '\n' ∉ tail) (rest : List Char) :
    body? true (text ++ '\'' :: '/' :: (tail ++ '\n' :: rest)) =
      body? (!decide (Ends tail)) rest := by
  induction hn : text.length using Nat.strongRecOn generalizing text with
  | ind n ih =>
    by_cases hfeed : '\n' ∈ text
    · obtain ⟨first, below, rfl, hfirst⟩ := List.eq_append_cons_of_mem hfeed
      obtain ⟨hpart, hbelow⟩ := free_of_append hfree
      have hshorter : below.length < n := by
        rw [← hn, List.length_append, List.length_cons]
        omega
      rw [List.append_assoc, List.cons_append, body?_line true hfirst nofun,
        closesComment_of_free hpart]
      exact ih below.length hshorter hbelow rfl
    · have hline : '\n' ∉ text ++ '\'' :: '/' :: tail := by simp [hfeed, ht]
      have hread := body?_line true hline nofun rest
      rw [trim_mark, closesComment_mark, List.append_assoc] at hread
      exact hread

/-- In a body, the line on which a comment begins. -/
theorem body?_opening (indent : Blanks) {first : List Char} (hl : '\n' ∉ first) (rest : List Char) :
    body? false (indent.chars ++ '/' :: '\'' :: (first ++ '\n' :: rest)) =
      body? (!closesComment ('/' :: '\'' :: trimRight first)) rest := by
  have hslash : isBlank '/' = false := by decide
  have hquote : isBlank '\'' = false := by decide
  have hindent : trimLeft indent.chars = [] :=
    dropWhile_eq_nil fun c hc => isBlank_of_isGap (indent.gaps c hc)
  have hfirst : trimRight ('\'' :: first) = '\'' :: trimRight first :=
    trimRight_append_cons hquote [] first
  have htrim : trim (indent.chars ++ '/' :: '\'' :: first) = '/' :: '\'' :: trimRight first := by
    rw [trim_append_cons hslash, hindent, hfirst]
    rfl
  have hline : '\n' ∉ indent.chars ++ '/' :: '\'' :: first := by
    have hgap : '\n' ∉ indent.chars := fun h => absurd (indent.gaps _ h) (by decide)
    simp [hgap, hl]
  have hskip : (skipGap (indent.chars ++ '/' :: '\'' :: first)).head? ≠ some '}' := by
    rw [skipGap_append indent.gaps]
    nofun
  have hread := body?_line false hline (fun _ => hskip) rest
  rw [htrim, List.append_assoc] at hread
  exact hread

theorem closesComment_opening {first : List Char} (hfree : ¬ ['\'', '/'] <:+: first) :
    closesComment ('/' :: '\'' :: trimRight first) = true ↔ trimRight first = ['/'] := by
  rw [closesComment_iff]
  constructor
  · intro h
    rcases List.suffix_cons_iff.mp h with heq | hsuffix
    · cases heq
    · rcases List.suffix_cons_iff.mp hsuffix with heq | hsuffix
      · exact (List.cons.inj heq).2.symm
      · exact absurd (hsuffix.isInfix.trans (prefix_trimRight first).isInfix) hfree
  · intro heq
    rw [heq]
    exact List.suffix_cons '/' ['\'', '/']

namespace BlockComment

def chars (k : BlockComment) : List Char :=
  k.indent.chars ++ '/' :: '\'' :: (k.text ++ '\'' :: '/' :: (k.tail.chars ++ ['\n']))

theorem chars_append (k : BlockComment) (rest : List Char) :
    k.chars ++ rest = k.indent.chars ++ '/' :: '\'' ::
      (k.text ++ '\'' :: '/' :: (k.tail.chars ++ '\n' :: rest)) := by
  simp [chars]

theorem ofText_append (k : BlockComment) (rest : List Char) :
    ofText (String.ofList (k.chars ++ rest)) = ofText (String.ofList rest) := by
  let passage : Passage :=
    ⟨k.indent, .blockComment k.text k.free k.tail, ⟨⟨[], nofun⟩, false⟩⟩
  have hchars : passage.chars = k.chars := by
    simp [passage, Passage.chars, Writing.chars, LineEnd.chars, LineEnd.before, chars]
  have hitem : item? (passage.chars ++ rest) = some (.silent, rest) := item?_passage passage
  rw [hchars] at hitem
  rw [ofText_ofList, ofText_ofList, items_of_item? hitem]
  rfl

/-- The first line of the comment has only a slash behind the opening mark. -/
def Overlapped (k : BlockComment) : Prop :=
  ∃ first below, k.text = first ++ '\n' :: below ∧ '\n' ∉ first ∧ trimRight first = ['/']

def Ending (k : BlockComment) : Prop := Ends k.tail.chars

instance (k : BlockComment) : Decidable k.Ending := inferInstanceAs (Decidable (Ends _))

theorem body?_append (k : BlockComment) (h : ¬ k.Overlapped) (rest : List Char) :
    body? false (k.chars ++ rest) = body? (!decide k.Ending) rest := by
  rw [k.chars_append]
  by_cases hfeed : '\n' ∈ k.text
  · obtain ⟨first, below, htext, hfirst⟩ := List.eq_append_cons_of_mem hfeed
    obtain ⟨hpart, hbelow⟩ := free_of_append (htext ▸ k.free)
    have hclosed : closesComment ('/' :: '\'' :: trimRight first) = false := by
      apply Bool.eq_false_iff.mpr
      intro hcloses
      exact h ⟨first, below, htext, hfirst, (closesComment_opening hpart).mp hcloses⟩
    rw [htext, List.append_assoc, List.cons_append, body?_opening k.indent hfirst, hclosed]
    exact body?_inComment hbelow k.tail.oneLine rest
  · have hline : '\n' ∉ k.text ++ '\'' :: '/' :: k.tail.chars := by
      simp [hfeed, k.tail.oneLine]
    have hread := body?_opening k.indent hline rest
    have hcloses := closesComment_mark ('/' :: '\'' :: k.text) k.tail.chars
    rw [trimRight_mark] at hread
    rw [List.cons_append, List.cons_append] at hcloses
    rw [hcloses, List.append_assoc] at hread
    exact hread

/-- The slash and the opening mark are taken for a closing mark. -/
theorem body?_overlapped (k : BlockComment) {first below : List Char}
    (ht : k.text = first ++ '\n' :: below) (hl : '\n' ∉ first) (hs : trimRight first = ['/'])
    (rest : List Char) :
    body? false (k.chars ++ rest) =
      body? false (below ++ '\'' :: '/' :: (k.tail.chars ++ '\n' :: rest)) := by
  obtain ⟨hpart, -⟩ := free_of_append (ht ▸ k.free)
  rw [k.chars_append, ht, List.append_assoc, List.cons_append, body?_opening k.indent hl,
    (closesComment_opening hpart).mpr hs]
  rfl

/-- How a class is read with the comment in its body. -/
structure InBody (k : BlockComment) (o : OpenClass) : Prop where
  skipped : ¬ k.Overlapped →
    ((∀ rest, ReadAlike (o.chars ++ (k.chars ++ rest)) (o.chars ++ rest)) ↔ k.Ending)
  goesOn : ¬ k.Overlapped → ¬ k.Ending → ∀ line, '\n' ∉ line → ∀ rest,
    ReadAlike (o.chars ++ (k.chars ++ (line ++ '\n' :: rest)))
      (o.chars ++ if closesComment (trim line) then rest else k.chars ++ rest)
  overlapped : ∀ first below, k.text = first ++ '\n' :: below → '\n' ∉ first →
    trimRight first = ['/'] → ∀ rest, ReadAlike (o.chars ++ (k.chars ++ rest))
      (o.chars ++ (below ++ '\'' :: '/' :: (k.tail.chars ++ '\n' :: rest)))

theorem ending_of_readAlike {k : BlockComment} {o : OpenClass} (hk : ¬ k.Overlapped)
    (h : ∀ rest, ReadAlike (o.chars ++ (k.chars ++ rest)) (o.chars ++ rest)) : k.Ending := by
  by_contra hend
  have hread : body? false (k.chars ++ ['}']) = none := by
    rw [k.body?_append hk, decide_eq_false hend, Bool.not_false, body?_unclosed]
  have hsame : diagram? (o.chars ++ (k.chars ++ ['}'])) = diagram? (o.chars ++ ['}']) :=
    congrArg Except.toOption (readAlike_iff.mp (h ['}']))
  rw [o.diagram?_append, hread, o.diagram?_append, body?_brace, Option.bind_some] at hsame
  have hend : (takeLine []).2 = [] := rfl
  rw [hend, diagram?_nil] at hsame
  cases hsame

theorem inBody (k : BlockComment) (o : OpenClass) : k.InBody o where
  skipped := by
    intro hk
    refine ⟨ending_of_readAlike hk, fun hend rest => readAlike_iff.mpr (o.ofText_congr ?_)⟩
    rw [k.body?_append hk, decide_eq_true hend]
    rfl
  goesOn := by
    intro hk hend line hl rest
    refine readAlike_iff.mpr (o.ofText_congr ?_)
    rw [k.body?_append hk, decide_eq_false hend, Bool.not_false, body?_line true hl nofun,
      Bool.true_or, if_pos rfl]
    split
    · next hcloses =>
      rw [hcloses]
      rfl
    · next hcloses =>
      rw [Bool.eq_false_iff.mpr hcloses, k.body?_append hk, decide_eq_false hend]
  overlapped := by
    intro first below ht hl hs rest
    exact readAlike_iff.mpr (o.ofText_congr (k.body?_overlapped ht hl hs rest))

end BlockComment

/-- Between items a comment is skipped, whatever its text. In a body this holds if its last
line ends with a closing mark, and does not if it goes on behind it. -/
theorem blockComment_read (k : BlockComment) :
    (∀ rest, ReadAlike (k.chars ++ rest) rest) ∧ ∀ o : OpenClass, k.InBody o :=
  ⟨fun rest => readAlike_iff.mpr (k.ofText_append rest), k.inBody⟩

def OpenClass.plain : OpenClass := ⟨.plain, ⟨[], nofun⟩, nofun, []⟩

theorem blockComment_read_plain :
    ∃ k : BlockComment, k.chars = "/' c\nd '/\n".toList ∧ k.Ending ∧
      ∀ rest, ReadAlike ("class A \x7b\n".toList ++ ("/' c\nd '/\n".toList ++ rest))
        ("class A \x7b\n".toList ++ rest) := by
  let k : BlockComment := ⟨⟨[], nofun⟩, " c\nd ".toList, by decide, ⟨[], nofun⟩⟩
  have hending : k.Ending := .inl rfl
  have hk : ¬ k.Overlapped := by
    rintro ⟨first, below, ht, -, hs⟩
    have hslash : '/' ∈ first := (prefix_trimRight first).subset (hs ▸ List.mem_singleton_self '/')
    have htext : '/' ∈ k.text := ht ▸ List.mem_append_left _ hslash
    exact absurd htext (by decide)
  exact ⟨k, rfl, hending, (((blockComment_read k).2 .plain).skipped hk).mpr hending⟩

/-- The comment leaves the class open, though before the class it is skipped. -/
theorem class_lost_in_comment :
    diagram? "class A \x7b\nx\n\x7d".toList = some ⟨[⟨.concrete, "A", none, ["x"], []⟩], []⟩ ∧
      diagram? "/' c '/ t\nclass A \x7b\nx\n\x7d".toList =
        some ⟨[⟨.concrete, "A", none, ["x"], []⟩], []⟩ ∧
      diagram? "class A \x7b\n/' c '/ t\nx\n\x7d".toList = none := by
  let k : BlockComment := ⟨⟨[], nofun⟩, " c ".toList, by decide, ⟨" t".toList, by decide⟩⟩
  have hk : ¬ k.Overlapped := by
    rintro ⟨first, below, ht, -, -⟩
    have hfeed : '\n' ∈ k.text := ht ▸ List.mem_append_right first List.mem_cons_self
    exact absurd hfeed (by decide)
  have hfeed : '\n' ∉ ['x'] := by decide
  have hline : body? false ['x', '\n', '}'] = some (["x"], []) := by
    have hread := body?_line false hfeed (fun _ => by decide) ['}']
    rw [body?_brace] at hread
    exact hread
  have hlost : body? false (k.chars ++ ['x', '\n', '}']) = none := by
    have hending : ¬ k.Ending := by decide
    rw [k.body?_append hk, decide_eq_false hending]
    exact (body?_line true hfeed nofun ['}']).trans body?_unclosed
  have hclass : diagram? "class A \x7b\nx\n\x7d".toList =
      some ⟨[⟨.concrete, "A", none, ["x"], []⟩], []⟩ := by
    refine (OpenClass.plain.diagram?_append ['x', '\n', '}']).trans ?_
    rw [hline, Option.bind_some, diagram?_nil]
    rfl
  refine ⟨hclass, ?_, ?_⟩
  · exact (congrArg Except.toOption (k.ofText_append "class A \x7b\nx\n\x7d".toList)).trans hclass
  · refine (OpenClass.plain.diagram?_append (k.chars ++ ['x', '\n', '}'])).trans ?_
    rw [hlost, Option.bind_none]

end DotDiagram.ClassDiagram
