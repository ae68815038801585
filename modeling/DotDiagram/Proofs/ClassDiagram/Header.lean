import DotDiagram.Proofs.ClassDiagram.Items
import DotDiagram.Proofs.ClassDiagram.Pieces
import Mathlib.Data.List.TakeWhile

/-! The header of a class: all that stands up to its opening brace. Every class that is read
begins with a header, a header is read whatever follows, and no relation begins like one. -/

namespace DotDiagram.ClassDiagram

variable {cs rest : List Char}

/-- What stands between angle brackets. Those that close it are the first that do. -/
structure Bracketed where
  chars : List Char
  nonempty : chars ≠ []
  free : ¬ ['>', '>'] <:+: chars ++ ['>']

structure Header where
  words : KindWords
  gap : Gap
  name : Name
  stereotype : Option (Blanks × Bracketed)
  space : Blanks

namespace Bracketed

def written (s : Bracketed) : List Char := '<' :: '<' :: (s.chars ++ ['>', '>'])

theorem stereotype?_append (s : Bracketed) :
    stereotype? (s.written ++ rest) = some (String.ofList (trim s.chars), rest) := by
  have hopen : after? "<<".toList (s.written ++ rest) = some (s.chars ++ '>' :: '>' :: rest) := by
    simp only [written, List.cons_append, List.append_assoc]
    exact after?_append ['<', '<'] _
  have hclose : splitAtFirst? ">>".toList (s.chars ++ '>' :: '>' :: rest) = some (s.chars, rest) :=
    splitAtFirst?_append rest s.free
  have hshown : s.chars.isEmpty = false := List.isEmpty_eq_false_iff.mpr s.nonempty
  simp only [stereotype?, hopen, hclose, hshown]
  rfl

theorem exists_of_stereotype? {text : String} (h : stereotype? cs = some (text, rest)) :
    ∃ s : Bracketed, cs = s.written ++ rest := by
  obtain ⟨inner, shown, hopen, hclose, hshown, -⟩ := pieces_of_stereotype? h
  have hmarked : splitAtFirst? ['>', '>'] inner = some (shown, rest) := hclose
  obtain ⟨hinner, hfree⟩ := eq_of_splitAtFirst? hmarked
  refine ⟨⟨shown, List.isEmpty_eq_false_iff.mp hshown, hfree⟩, ?_⟩
  rw [eq_of_after? hopen, hinner]
  simp [written]

end Bracketed

namespace Header

def stereotypeChars (h : Header) : List Char :=
  match h.stereotype with
  | some (space, s) => space.chars ++ s.written
  | none => []

def chars (h : Header) : List Char :=
  h.words.chars ++ (h.gap.chars ++ (h.name.chars ++ (h.stereotypeChars ++ (h.space.chars ++ ['{']))))

def decl (h : Header) (members : List String) : ClassDecl :=
  ofMembers h.words.kind h.name.text (h.stereotype.map fun s => String.ofList (trim s.2.chars))
    members

theorem chars_append (h : Header) :
    h.chars ++ rest = h.words.chars ++ (h.gap.chars ++ (h.name.chars ++ (h.stereotypeChars ++
      (h.space.chars ++ '{' :: rest)))) := by
  simp [chars]

theorem head?_behind (h : Header) :
    ∀ c ∈ (h.stereotypeChars ++ (h.space.chars ++ '{' :: rest)).head?,
      (isNameChar c || c == '-') = false := by
  have hgap : ∀ c, isGap c = true → (isNameChar c || c == '-') = false := by
    intro c hc
    rcases isGap_iff.mp hc with rfl | rfl <;> rfl
  unfold stereotypeChars
  cases h.stereotype with
  | none => exact h.space.head?_append hgap (not_of_mem_head? rfl _)
  | some found =>
    rw [List.append_assoc]
    exact found.1.head?_append hgap (not_of_mem_head? rfl _)

theorem optionalStereotype_append (h : Header) :
    optionalStereotype (h.stereotypeChars ++ (h.space.chars ++ '{' :: rest)) =
      (h.stereotype.map fun s => String.ofList (trim s.2.chars), h.space.chars ++ '{' :: rest) := by
  unfold optionalStereotype stereotypeChars
  cases h.stereotype with
  | none =>
    have hskip : skipGap (h.space.chars ++ '{' :: rest) = '{' :: rest :=
      skipGap_append h.space.gaps
    have hnone : stereotype? ('{' :: rest) = none := rfl
    simp only [List.nil_append, hskip, hnone]
    rfl
  | some found =>
    obtain ⟨space, s⟩ := found
    have hskip : skipGap (space.chars ++ s.written ++ (h.space.chars ++ '{' :: rest)) =
        s.written ++ (h.space.chars ++ '{' :: rest) := by
      rw [List.append_assoc, skipGap_append space.gaps]
      rfl
    simp only [hskip, s.stereotype?_append]
    rfl

/-- Behind its header a class has only members. -/
theorem class?_append (h : Header) :
    class? (h.chars ++ rest) = (members? rest).map fun read => (h.decl read.1, read.2) := by
  have hstop : ∀ c ∈ (h.stereotypeChars ++ (h.space.chars ++ '{' :: rest)).head?,
      isNameChar c = false := fun c hc => (Bool.or_eq_false_iff.mp (h.head?_behind c hc)).1
  have hname : (gap? (h.gap.chars ++ (h.name.chars ++ (h.stereotypeChars ++
      (h.space.chars ++ '{' :: rest))))).bind name? =
        some (h.name.text, h.stereotypeChars ++ (h.space.chars ++ '{' :: rest)) := by
    rw [gap?_append, skipGap_name, Option.bind_some, name?_append h.name hstop]
  have hbrace : skipGap (h.space.chars ++ '{' :: rest) = '{' :: rest :=
    skipGap_append h.space.gaps
  have hopen : (after? ['{'] ('{' :: rest)).bind members? = members? rest := rfl
  rw [chars_append]
  simp only [class?, kind?_append, hname, optionalStereotype_append, hbrace, hopen]
  cases members? rest <;> rfl

end Header

theorem Keyword.exists_of_after {word : String} (h : afterIgnoringCase? word.toList cs = some rest) :
    ∃ keyword : Keyword word, cs = keyword.chars ++ rest := by
  have hsplit : ∀ {w cs : List Char}, afterIgnoringCase? w cs = some rest →
      ∃ written : List Char, written.map Char.toLower = w ∧ cs = written ++ rest := by
    intro w
    induction w with
    | nil => exact fun h => ⟨[], rfl, Option.some.inj h⟩
    | cons w ws ih =>
      intro cs h
      cases cs with
      | nil => cases h
      | cons c cs =>
        rw [afterIgnoringCase?] at h
        split at h
        · next heq =>
          obtain ⟨written, hlower, rfl⟩ := ih h
          exact ⟨c :: written, by rw [List.map_cons, heq, hlower], rfl⟩
        · cases h
  obtain ⟨written, hlower, heq⟩ := hsplit h
  exact ⟨⟨written, hlower⟩, heq⟩

theorem Gap.exists_of_gap? (h : gap? cs = some rest) : ∃ gap : Gap, cs = gap.chars ++ rest := by
  cases cs with
  | nil => cases h
  | cons c cs =>
    rw [gap?] at h
    split at h
    · next hc =>
      cases h
      have hgaps : ∀ d ∈ c :: cs.takeWhile isGap, isGap d = true := by
        intro d hd
        rcases List.mem_cons.mp hd with rfl | hd
        · exact hc
        · exact List.mem_takeWhile_imp hd
      refine ⟨⟨⟨c :: cs.takeWhile isGap, hgaps⟩, List.cons_ne_nil _ _⟩, ?_⟩
      rw [List.cons_append, skipGap, List.takeWhile_append_dropWhile]
    · cases h

theorem Blanks.exists_skipGap (cs : List Char) :
    ∃ blanks : Blanks, cs = blanks.chars ++ skipGap cs :=
  ⟨⟨cs.takeWhile isGap, fun _ hc => List.mem_takeWhile_imp hc⟩,
    (List.takeWhile_append_dropWhile).symm⟩

theorem Name.exists_of_name? {name : String} (h : name? cs = some (name, rest)) :
    ∃ name : Name, cs = name.chars ++ rest := by
  rw [name?] at h
  split at h
  · cases h
  · next hne =>
    cases h
    have hnonempty : cs.takeWhile isNameChar ≠ [] :=
      fun heq => hne (List.isEmpty_iff.mpr heq)
    exact ⟨⟨cs.takeWhile isNameChar, hnonempty, fun _ hc => List.mem_takeWhile_imp hc⟩,
      (List.takeWhile_append_dropWhile).symm⟩

theorem KindWords.exists_of_kind? {kind : ClassKind} (h : kind? cs = some (kind, rest)) :
    ∃ words : KindWords, cs = words.chars ++ rest := by
  unfold kind? at h
  split at h
  · next left habstract =>
    cases h
    simp only [abstractWords?, Option.bind_eq_some_iff] at habstract
    obtain ⟨first, hfirst, second, hgap, hsecond⟩ := habstract
    obtain ⟨first, rfl⟩ := Keyword.exists_of_after hfirst
    obtain ⟨gap, rfl⟩ := Gap.exists_of_gap? hgap
    obtain ⟨second, rfl⟩ := Keyword.exists_of_after hsecond
    exact ⟨.abstract first gap second, by simp [chars]⟩
  · split at h
    · next left hword =>
      cases h
      obtain ⟨word, rfl⟩ := Keyword.exists_of_after hword
      exact ⟨.concrete word, rfl⟩
    · split at h
      · next left hword =>
        cases h
        obtain ⟨word, rfl⟩ := Keyword.exists_of_after hword
        exact ⟨.interface word, rfl⟩
      · split at h
        · next left hword =>
          cases h
          obtain ⟨word, rfl⟩ := Keyword.exists_of_after hword
          exact ⟨.enumeration word, rfl⟩
        · cases h

/-- What a header says. -/
structure Heading where
  kind : ClassKind
  name : String
  stereotype : Option String

def Heading.decl (heading : Heading) (members : List String) : ClassDecl :=
  ofMembers heading.kind heading.name heading.stereotype members

/-- The header of a class, and what stands behind its brace. -/
def header? (cs : List Char) : Option (Heading × List Char) :=
  match kind? cs with
  | none => none
  | some (kind, cs) =>
    match (gap? cs).bind name? with
    | none => none
    | some (name, cs) =>
      let stereotype := optionalStereotype cs
      (after? ['{'] (skipGap stereotype.2)).map fun below => (⟨kind, name, stereotype.1⟩, below)

theorem class?_eq_bind (cs : List Char) :
    class? cs = (header? cs).bind fun header =>
      (members? header.2).map fun read => (header.1.decl read.1, read.2) := by
  unfold class? header?
  cases kind? cs with
  | none => rfl
  | some read =>
    obtain ⟨kind, cs₁⟩ := read
    dsimp only
    cases (gap? cs₁).bind name? with
    | none => rfl
    | some read =>
      obtain ⟨name, cs₂⟩ := read
      dsimp only
      cases after? ['{'] (skipGap (optionalStereotype cs₂).2) with
      | none => rfl
      | some below =>
        simp only [Option.bind_some, Option.map_some]
        cases members? below <;> rfl

theorem pieces_of_header? {heading : Heading} (h : header? cs = some (heading, rest)) :
    ∃ cs₁ cs₂ cs₃, kind? cs = some (heading.kind, cs₁) ∧ gap? cs₁ = some cs₂ ∧
      name? cs₂ = some (heading.name, cs₃) ∧
      after? ['{'] (skipGap (optionalStereotype cs₃).2) = some rest := by
  unfold header? at h
  split at h
  · cases h
  · next kind cs₁ hkind =>
    split at h
    · cases h
    · next name cs₃ hname =>
      obtain ⟨cs₂, hgap, hname⟩ := Option.bind_eq_some_iff.mp hname
      obtain ⟨below, hbrace, heq⟩ := Option.map_eq_some_iff.mp h
      cases heq
      exact ⟨cs₁, cs₂, cs₃, hkind, hgap, hname, hbrace⟩

theorem exists_of_header? {heading : Heading} (h : header? cs = some (heading, rest)) :
    ∃ header : Header, cs = header.chars ++ rest := by
  obtain ⟨cs₁, cs₂, cs₃, hkind, hgap, hname, hbrace⟩ := pieces_of_header? h
  obtain ⟨words, rfl⟩ := KindWords.exists_of_kind? hkind
  obtain ⟨gap, rfl⟩ := Gap.exists_of_gap? hgap
  obtain ⟨name, rfl⟩ := Name.exists_of_name? hname
  have hspace : ∀ {left}, skipGap left = '{' :: rest →
      ∃ space : Blanks, left = space.chars ++ '{' :: rest := by
    intro left heq
    obtain ⟨space, hleft⟩ := Blanks.exists_skipGap left
    exact ⟨space, heq ▸ hleft⟩
  have hopen := eq_of_after? hbrace
  unfold optionalStereotype at hopen
  cases hs : stereotype? (skipGap cs₃) with
  | none =>
    simp only [hs] at hopen
    obtain ⟨space, hleft⟩ := hspace hopen
    exact ⟨⟨words, gap, name, none, space⟩, by rw [Header.chars_append, hleft]; rfl⟩
  | some read =>
    simp only [hs] at hopen
    obtain ⟨space, hleft⟩ := hspace hopen
    obtain ⟨lead, hlead⟩ := Blanks.exists_skipGap cs₃
    obtain ⟨s, hwritten⟩ := Bracketed.exists_of_stereotype? hs
    refine ⟨⟨words, gap, name, some (lead, s), space⟩, ?_⟩
    rw [Header.chars_append, hlead, hwritten, hleft]
    simp [Header.stereotypeChars]

theorem exists_header {c : ClassDecl} (h : class? cs = some (c, rest)) :
    ∃ (header : Header) (below : List Char), cs = header.chars ++ below := by
  rw [class?_eq_bind, Option.bind_eq_some_iff] at h
  obtain ⟨⟨heading, below⟩, hheader, -⟩ := h
  obtain ⟨header, heq⟩ := exists_of_header? hheader
  exact ⟨header, below, heq⟩

theorem arrow?_name (name : Name) (hr : ∀ c ∈ rest.head?, (isNameChar c || c == '-') = false) :
    arrow? (name.chars ++ rest) = none := by
  have hstop : ∀ c ∈ rest.head?, isNameChar c = false :=
    fun c hc => (Bool.or_eq_false_iff.mp (hr c hc)).1
  cases harrow : arrow? (name.chars ++ rest) with
  | none => rfl
  | some read =>
    rcases head?_of_arrow? harrow with ho | ⟨c, left, hcs, hc⟩
    · have hrest : rest = '-' :: '-' :: read.2 := by
        rw [← dropWhile_append_of_head? name.named hstop, ho]
        rfl
      have hdash := hr '-' (by rw [hrest]; rfl)
      cases hdash
    · obtain ⟨d, ds, hchars, hd⟩ := name.exists_cons
      rw [hchars, List.cons_append, List.cons.injEq] at hcs
      rw [hcs.1, hc] at hd
      cases hd

/-- Two names in a row begin no relation. -/
theorem relation?_names (first : Name) (gap : Gap) (second : Name)
    (hr : ∀ c ∈ rest.head?, (isNameChar c || c == '-') = false) :
    relation? (first.chars ++ (gap.chars ++ (second.chars ++ rest))) = none := by
  have hstop : ∀ c ∈ (gap.chars ++ (second.chars ++ rest)).head?, isNameChar c = false := by
    obtain ⟨c, cs, hchars, hc⟩ := gap.exists_cons
    rw [hchars]
    exact not_of_mem_head? (isNameChar_of_isGap hc) _
  simp only [relation?, name?_append first hstop, skipGap_append gap.gaps, skipGap_name,
    arrow?_name second hr]

def Keyword.toName {word : String} (keyword : Keyword word) (hw : word.toList ≠ [])
    (hl : word.toList.all Char.isLower = true) : Name where
  chars := keyword.chars
  nonempty h := hw (by rw [← keyword.same, h]; rfl)
  named c hc := by
    have hlower : c.toLower ∈ word.toList := keyword.same ▸ List.mem_map_of_mem hc
    exact isNameChar_of_isLower (List.all_eq_true.mp hl _ hlower)

theorem Header.relation?_append (h : Header) : relation? (h.chars ++ rest) = none := by
  rw [chars_append]
  have hword {word : String} (keyword : Keyword word) (hw : word.toList ≠ [])
      (hl : word.toList.all Char.isLower = true) :
      relation? (keyword.chars ++ (h.gap.chars ++ (h.name.chars ++ (h.stereotypeChars ++
        (h.space.chars ++ '{' :: rest))))) = none :=
    relation?_names (keyword.toName hw hl) h.gap h.name h.head?_behind
  cases h.words with
  | concrete word => exact hword word (by decide) (by decide)
  | interface word => exact hword word (by decide) (by decide)
  | enumeration word => exact hword word (by decide) (by decide)
  | abstract first gap second =>
    have hr : ∀ c ∈ (h.gap.chars ++ (h.name.chars ++ (h.stereotypeChars ++
        (h.space.chars ++ '{' :: rest)))).head?, (isNameChar c || c == '-') = false := by
      obtain ⟨c, cs, hchars, hc⟩ := h.gap.exists_cons
      rw [hchars]
      apply not_of_mem_head?
      rcases isGap_iff.mp hc with rfl | rfl <;> rfl
    have hnames := relation?_names (first.toName (by decide) (by decide)) gap
      (second.toName (by decide) (by decide)) hr
    simpa [KindWords.chars, Keyword.toName] using hnames

namespace Header

theorem exists_cons (h : Header) : ∃ c cs, h.chars = c :: cs ∧ c ∉ marks := by
  obtain ⟨c, cs, hchars, hc⟩ := h.words.exists_cons
  rw [chars, hchars]
  exact ⟨c, _, rfl, hc⟩

theorem item?_append (h : Header) :
    item? (h.chars ++ rest) =
      (class? (h.chars ++ rest)).map fun read => (.declared read.1, read.2) := by
  obtain ⟨c, cs, hchars, hc⟩ := h.exists_cons
  simp only [item?, skipGap_of_not_mark hc hchars, itemAt?, silent?_of_not_mark hc hchars,
    h.relation?_append]
  cases class? (h.chars ++ rest) <;> rfl

theorem exists_brace (h : Header) : ∃ text, h.chars = text ++ ['{'] :=
  ⟨h.words.chars ++ (h.gap.chars ++ (h.name.chars ++ (h.stereotypeChars ++ h.space.chars))),
    by simp [chars]⟩

theorem trim_append (h : Header) : trim (h.chars ++ rest) ≠ [] := by
  have hbrace : isBlank '{' = false := by decide
  obtain ⟨text, hchars⟩ := h.exists_brace
  rw [hchars, List.append_assoc, List.singleton_append, trim_append_cons hbrace]
  simp

/-- No complaint about a class goes beyond its first line. -/
theorem complaint_newline (h : Header) (line below : List Char) :
    complaint (h.chars ++ (line ++ '\n' :: below)) = complaint (h.chars ++ line) := by
  have hbrace : isBlank '{' = false := by decide
  have hfeed : ('\n' != '\n') = false := rfl
  obtain ⟨text, hchars⟩ := h.exists_brace
  have hleft : ∀ rest, trimLeft (h.chars ++ rest) = (trimLeft text ++ '{' :: rest) := by
    intro rest
    rw [hchars, List.append_assoc, List.singleton_append, trimLeft_append_cons hbrace]
  have hcons : trimLeft text ++ '{' :: (line ++ '\n' :: below) =
      (trimLeft text ++ '{' :: line) ++ '\n' :: below := by
    simp
  simp only [complaint, hleft, hcons, takeWhile_newline (p := (· != '\n')) hfeed]

/-- What begins with a header is read as a class, or not at all. -/
theorem ofText_append (h : Header) :
    ofText (String.ofList (h.chars ++ rest)) =
      match class? (h.chars ++ rest) with
      | some (c, left) => (ofText (String.ofList left)).map fun d => ⟨c :: d.classes, d.relations⟩
      | none => .error (.unexpected (complaint (h.chars ++ rest))) := by
  have hitem : item? (h.chars ++ rest) =
      (class? (h.chars ++ rest)).map fun read => (.declared read.1, read.2) := h.item?_append
  cases hclass : class? (h.chars ++ rest) with
  | none =>
    rw [hclass] at hitem
    rw [ofText_ofList, items_of_none hitem, if_neg h.trim_append]
  | some read =>
    rw [hclass] at hitem
    simp only [ofText_ofList, items_of_item? hitem]
    split <;> rfl

theorem diagram?_append (h : Header) :
    diagram? (h.chars ++ rest) = (members? rest).bind fun read =>
      (diagram? read.2).map fun d => ⟨h.decl read.1 :: d.classes, d.relations⟩ := by
  unfold diagram?
  rw [h.ofText_append, h.class?_append]
  cases members? rest with
  | none => rfl
  | some read =>
    simp only [Option.map_some, Option.bind_some]
    cases ofText (String.ofList read.2) <;> rfl

/-- The header `class A {`. -/
def plain : Header where
  words := .concrete ⟨"class".toList, rfl⟩
  gap := ⟨⟨[' '], List.all_eq_true.mp rfl⟩, nofun⟩
  name := ⟨['A'], nofun, List.all_eq_true.mp rfl⟩
  stereotype := none
  space := ⟨[' '], List.all_eq_true.mp rfl⟩

end Header

end DotDiagram.ClassDiagram
