import DotDiagram.Markup
import DotDiagram.Proofs.Dot.Legible
import DotDiagram.Proofs.Text.Scan

/-! Markup as pieces: tags, and characters between them. Five characters stand for
themselves only as entities, so that nothing that was escaped reads as a tag or as an
entity of its own. -/

namespace DotDiagram

namespace Markup

structure Tag where
  name : String
  attrs : List (String × String)
  deriving DecidableEq, Repr

inductive Piece where
  | char (c : Char)
  | opening (tag : Tag)
  | closing (name : String)
  | void (tag : Tag)
  deriving DecidableEq, Repr

def isTagLetter (c : Char) : Bool := c.isAlpha || c == '-'

def isValueLetter (c : Char) : Bool := c != '"' && c != '<' && c != '>' && c != '&'

def tagName? (cs : List Char) : Option (String × List Char) :=
  match cs.takeWhile isTagLetter with
  | [] => none
  | name => some (.ofList name, cs.dropWhile isTagLetter)

/-- A name and a value between quotes, after the blank that leads them. -/
def attr? (cs : List Char) : Option ((String × String) × List Char) :=
  match tagName? cs with
  | some (name, '=' :: '"' :: cs) =>
    match cs.dropWhile isValueLetter with
    | '"' :: rest => some ((name, .ofList (cs.takeWhile isValueLetter)), rest)
    | _ => none
  | _ => none

theorem length_tagName?_le {cs rest : List Char} {name : String}
    (h : tagName? cs = some (name, rest)) : rest.length ≤ cs.length := by
  unfold tagName? at h
  split at h
  · cases h
  · cases h
    exact length_dropWhile_le isTagLetter cs

theorem length_attr?_le {cs rest : List Char} {attr : String × String}
    (h : attr? cs = some (attr, rest)) : rest.length ≤ cs.length := by
  unfold attr? at h
  split at h
  · next name cs' hname =>
    have hn := length_tagName?_le hname
    have hd := length_dropWhile_le isValueLetter cs'
    split at h
    · next rest' hrest =>
      cases h
      rw [hrest] at hd
      simp only [List.length_cons] at hn hd
      omega
    · cases h
  · cases h

/-- Attributes, each led by a blank, up to something else. -/
def attrs? : List Char → Option (List (String × String) × List Char)
  | ' ' :: cs =>
    match _ : attr? cs with
    | none => none
    | some (attr, rest) => (attrs? rest).map fun (attrs, rest) => (attr :: attrs, rest)
  | cs => some ([], cs)
  termination_by cs => cs.length
  decreasing_by
    have hl := length_attr?_le ‹_›
    simp only [List.length_cons]
    omega

def entities : List (String × Char) :=
  [("amp;", '&'), ("lt;", '<'), ("gt;", '>'), ("quot;", '"'), ("apos;", '\'')]

/-- An entity after its ampersand. -/
def entity? (cs : List Char) : Option (Char × List Char) :=
  entities.findSome? fun (name, c) => (after? name.toList cs).map fun rest => (c, rest)

/-- An end tag after its slash. -/
def endTag? (cs : List Char) : Option (Piece × List Char) :=
  match tagName? cs with
  | some (name, '>' :: rest) => some (.closing name, rest)
  | _ => none

/-- A tag after its bracket, if it is not an end tag. -/
def startTag? (cs : List Char) : Option (Piece × List Char) :=
  match tagName? cs with
  | none => none
  | some (name, cs) =>
    match attrs? cs with
    | some (attrs, '>' :: rest) => some (.opening ⟨name, attrs⟩, rest)
    | some (attrs, '/' :: '>' :: rest) => some (.void ⟨name, attrs⟩, rest)
    | _ => none

/-- The piece at the very front of a text. -/
def piece? : List Char → Option (Piece × List Char)
  | [] => none
  | '<' :: '/' :: cs => endTag? cs
  | '<' :: cs => startTag? cs
  | '&' :: cs => (entity? cs).map fun (c, rest) => (.char c, rest)
  | '>' :: _ => none
  | c :: cs => some (.char c, cs)

theorem length_attrs?_le {cs rest : List Char} {attrs : List (String × String)}
    (h : attrs? cs = some (attrs, rest)) : rest.length ≤ cs.length := by
  fun_induction attrs? cs generalizing attrs rest with
  | case1 => cases h
  | case2 cs attr mid hattr ih =>
    obtain ⟨⟨attrs', rest'⟩, hr, he⟩ := Option.map_eq_some_iff.mp h
    cases he
    have hl := ih hr
    have hm := length_attr?_le hattr
    simp only [List.length_cons]
    omega
  | case3 cs =>
    cases h
    exact Nat.le_refl _

theorem length_entity?_le {cs rest : List Char} {c : Char} (h : entity? cs = some (c, rest)) :
    rest.length ≤ cs.length := by
  obtain ⟨⟨name, d⟩, -, hd⟩ := List.exists_of_findSome?_eq_some h
  obtain ⟨rest', hr, he⟩ := Option.map_eq_some_iff.mp hd
  cases he
  have hl := length_of_after? hr
  omega

theorem length_piece?_lt {cs rest : List Char} {p : Piece} (h : piece? cs = some (p, rest)) :
    rest.length < cs.length := by
  unfold piece? at h
  split at h
  · cases h
  · unfold endTag? at h
    split at h
    · next name rest' hn =>
      cases h
      have hl := length_tagName?_le hn
      simp only [List.length_cons] at hl ⊢
      omega
    · cases h
  · unfold startTag? at h
    split at h
    · cases h
    · next name cs' hn =>
      have hl := length_tagName?_le hn
      split at h
      · next attrs rest' ha =>
        cases h
        have hl' := length_attrs?_le ha
        simp only [List.length_cons] at hl' ⊢
        omega
      · next attrs rest' ha =>
        cases h
        have hl' := length_attrs?_le ha
        simp only [List.length_cons] at hl' ⊢
        omega
      · cases h
  · obtain ⟨⟨c, rest'⟩, hr, he⟩ := Option.map_eq_some_iff.mp h
    cases he
    have hl := length_entity?_le hr
    simp only [List.length_cons]
    omega
  · cases h
  · cases h
    exact Nat.lt_succ_self _

/-- All pieces of a text. -/
def pieces? (cs : List Char) : Option (List Piece) :=
  match cs with
  | [] => some []
  | c :: cs =>
    match _ : piece? (c :: cs) with
    | none => none
    | some (p, rest) => (pieces? rest).map (p :: ·)
  termination_by cs.length
  decreasing_by exact length_piece?_lt ‹_›

def attrChars (attr : String × String) : List Char :=
  ' ' :: (attr.1.toList ++ '=' :: '"' :: (attr.2.toList ++ ['"']))

def Tag.chars (tag : Tag) : List Char := tag.name.toList ++ tag.attrs.flatMap attrChars

def Piece.chars : Piece → List Char
  | .char c => escapeMarkupChar c
  | .opening tag => '<' :: (tag.chars ++ ['>'])
  | .closing name => '<' :: '/' :: (name.toList ++ ['>'])
  | .void tag => '<' :: (tag.chars ++ ['/', '>'])

structure TagName (name : String) : Prop where
  ne_nil : name.toList ≠ []
  letters : ∀ c ∈ name.toList, isTagLetter c = true

instance (name : String) : Decidable (TagName name) :=
  decidable_of_iff (name.toList ≠ [] ∧ name.toList.all isTagLetter = true)
    ⟨fun h => ⟨h.1, List.all_eq_true.mp h.2⟩, fun h => ⟨h.ne_nil, List.all_eq_true.mpr h.letters⟩⟩

structure Tag.Legible (tag : Tag) : Prop where
  name : TagName tag.name
  attrs : ∀ attr ∈ tag.attrs, TagName attr.1 ∧ ∀ c ∈ attr.2.toList, isValueLetter c = true

instance (tag : Tag) : Decidable tag.Legible :=
  decidable_of_iff (TagName tag.name ∧
      ∀ attr ∈ tag.attrs, TagName attr.1 ∧ attr.2.toList.all isValueLetter = true)
    ⟨fun h => ⟨h.1, fun attr ha => (h.2 attr ha).imp_right List.all_eq_true.mp⟩,
      fun h => ⟨h.name, fun attr ha => (h.attrs attr ha).imp_right List.all_eq_true.mpr⟩⟩

def Piece.Legible : Piece → Prop
  | .char _ => True
  | .opening tag | .void tag => tag.Legible
  | .closing name => TagName name

theorem tagName?_append {name : String} (h : TagName name) {rest : List Char}
    (hr : ∀ c ∈ rest.head?, isTagLetter c = false) :
    tagName? (name.toList ++ rest) = some (name, rest) := by
  unfold tagName?
  rw [takeWhile_append_of_head? h.letters hr, dropWhile_append_of_head? h.letters hr]
  split
  · next hnil => exact absurd hnil h.ne_nil
  · rw [String.ofList_toList]

theorem attr?_append {attr : String × String} (hn : TagName attr.1)
    (hv : ∀ c ∈ attr.2.toList, isValueLetter c = true) (rest : List Char) :
    attr? (attr.1.toList ++ '=' :: '"' :: (attr.2.toList ++ '"' :: rest)) = some (attr, rest) := by
  have hstop : ∀ c ∈ ('"' :: rest).head?, isValueLetter c = false := not_of_mem_head? rfl rest
  rw [attr?, tagName?_append hn (not_of_mem_head? (by decide) _)]
  simp only [takeWhile_append_of_head? hv hstop, dropWhile_append_of_head? hv hstop,
    String.ofList_toList]

theorem attrs?_append {attrs : List (String × String)}
    (h : ∀ attr ∈ attrs, TagName attr.1 ∧ ∀ c ∈ attr.2.toList, isValueLetter c = true)
    {rest : List Char} (hr : ∀ c ∈ rest.head?, c ≠ ' ') :
    attrs? (attrs.flatMap attrChars ++ rest) = some (attrs, rest) := by
  induction attrs with
  | nil =>
    cases rest with
    | nil => rw [List.flatMap_nil, List.nil_append, attrs?]; nofun
    | cons c cs =>
      have hc : c ≠ ' ' := hr c rfl
      rw [List.flatMap_nil, List.nil_append, attrs?]
      exact fun ds heq => hc (List.cons.inj heq).1
  | cons attr attrs ih =>
    obtain ⟨hn, hv⟩ := h attr List.mem_cons_self
    have hrest := ih fun a ha => h a (List.mem_cons_of_mem attr ha)
    have hattr := attr?_append hn hv (attrs.flatMap attrChars ++ rest)
    have hsplit : (attr :: attrs).flatMap attrChars ++ rest =
        ' ' :: (attr.1.toList ++ '=' :: '"' ::
          (attr.2.toList ++ '"' :: (attrs.flatMap attrChars ++ rest))) := by
      simp [attrChars]
    rw [hsplit, attrs?]
    split
    · next hnone => simp [hnone] at hattr
    · next attr' rest' hsome =>
      rw [hattr] at hsome
      cases hsome
      rw [hrest]
      rfl

theorem endTag?_append {name : String} (h : TagName name) (rest : List Char) :
    endTag? (name.toList ++ '>' :: rest) = some (.closing name, rest) := by
  rw [endTag?, tagName?_append h (not_of_mem_head? (by decide) _)]
  rfl

theorem head?_attrChars_append {attrs : List (String × String)} {c : Char}
    (hc : isTagLetter c = false) (rest : List Char) :
    ∀ d ∈ (attrs.flatMap attrChars ++ c :: rest).head?, isTagLetter d = false := by
  cases attrs with
  | nil => exact not_of_mem_head? hc rest
  | cons attr attrs => exact not_of_mem_head? (by decide) _

theorem Tag.Legible.read {tag : Tag} (h : tag.Legible) {c : Char} (hc : isTagLetter c = false)
    (hs : c ≠ ' ') (rest : List Char) :
    tagName? (tag.chars ++ c :: rest) =
        some (tag.name, tag.attrs.flatMap attrChars ++ c :: rest) ∧
      attrs? (tag.attrs.flatMap attrChars ++ c :: rest) = some (tag.attrs, c :: rest) := by
  constructor
  · rw [Tag.chars, List.append_assoc]
    exact tagName?_append h.name (head?_attrChars_append hc rest)
  · apply attrs?_append h.attrs
    intro d hd
    rwa [← Option.mem_some.mp hd]

theorem startTag?_opening {tag : Tag} (h : tag.Legible) (rest : List Char) :
    startTag? (tag.chars ++ '>' :: rest) = some (.opening tag, rest) := by
  obtain ⟨hname, hattrs⟩ := h.read (by decide : isTagLetter '>' = false) (by decide) rest
  simp only [startTag?, hname, hattrs]

theorem startTag?_void {tag : Tag} (h : tag.Legible) (rest : List Char) :
    startTag? (tag.chars ++ '/' :: '>' :: rest) = some (.void tag, rest) := by
  obtain ⟨hname, hattrs⟩ := h.read (by decide : isTagLetter '/' = false) (by decide) ('>' :: rest)
  simp only [startTag?, hname, hattrs]

theorem piece?_startTag {tag : Tag} (h : tag.Legible) (rest : List Char) :
    piece? ('<' :: (tag.chars ++ rest)) = startTag? (tag.chars ++ rest) := by
  obtain ⟨c, cs, hname⟩ := List.exists_cons_of_ne_nil h.name.ne_nil
  have hc : isTagLetter c = true := h.name.letters c (hname ▸ List.mem_cons_self)
  have hne : c ≠ '/' := by
    rintro rfl
    exact absurd hc (by decide)
  simp [Tag.chars, hname, piece?, hne]

/-- A character is escaped as an entity of its own, or it is no special one. -/
theorem escapeMarkupChar_cases (c : Char) :
    (∃ name, (name, c) ∈ entities ∧ escapeMarkupChar c = '&' :: name.toList) ∨
      c ≠ '&' ∧ c ≠ '<' ∧ c ≠ '>' ∧ escapeMarkupChar c = [c] := by
  by_cases hamp : c = '&'
  · exact .inl ⟨"amp;", by simp [entities, hamp], by rw [hamp]; rfl⟩
  by_cases hlt : c = '<'
  · exact .inl ⟨"lt;", by simp [entities, hlt], by rw [hlt]; rfl⟩
  by_cases hgt : c = '>'
  · exact .inl ⟨"gt;", by simp [entities, hgt], by rw [hgt]; rfl⟩
  by_cases hquot : c = '"'
  · exact .inl ⟨"quot;", by simp [entities, hquot], by rw [hquot]; rfl⟩
  by_cases hapos : c = '\''
  · exact .inl ⟨"apos;", by simp [entities, hapos], by rw [hapos]; rfl⟩
  exact .inr ⟨hamp, hlt, hgt, by simp [escapeMarkupChar, hamp, hlt, hgt, hquot, hapos]⟩

theorem entity?_append {name : String} {c : Char} (h : (name, c) ∈ entities) (rest : List Char) :
    entity? (name.toList ++ rest) = some (c, rest) := by
  simp only [entities, List.mem_cons, List.not_mem_nil, or_false, Prod.mk.injEq] at h
  rcases h with ⟨rfl, rfl⟩ | ⟨rfl, rfl⟩ | ⟨rfl, rfl⟩ | ⟨rfl, rfl⟩ | ⟨rfl, rfl⟩ <;> rfl

theorem piece?_escape (c : Char) (rest : List Char) :
    piece? (escapeMarkupChar c ++ rest) = some (.char c, rest) := by
  rcases escapeMarkupChar_cases c with ⟨name, hname, hc⟩ | ⟨hamp, hlt, hgt, hc⟩
  · rw [hc, List.cons_append, piece?, entity?_append hname]
    rfl
  · simp [hc, piece?, hlt]

theorem piece?_append {p : Piece} (h : p.Legible) (rest : List Char) :
    piece? (p.chars ++ rest) = some (p, rest) := by
  cases p with
  | char c => exact piece?_escape c rest
  | opening tag =>
    have hs := startTag?_opening h rest
    rw [← piece?_startTag h] at hs
    simpa [Piece.chars] using hs
  | closing name => simpa [Piece.chars, piece?] using endTag?_append h rest
  | void tag =>
    have hs := startTag?_void h rest
    rw [← piece?_startTag h] at hs
    simpa [Piece.chars] using hs

theorem pieces?_of_piece? {cs rest : List Char} {p : Piece} (h : piece? cs = some (p, rest)) :
    pieces? cs = (pieces? rest).map (p :: ·) := by
  cases cs with
  | nil => cases h
  | cons c cs =>
    rw [pieces?]
    split
    · next hnone => cases hnone.symm.trans h
    · next hsome =>
      cases hsome.symm.trans h
      rfl

/-- What is written piece by piece is read piece by piece. -/
theorem pieces?_flatMap {ps : List Piece} (h : ∀ p ∈ ps, p.Legible) :
    pieces? (ps.flatMap Piece.chars) = some ps := by
  induction ps with
  | nil => rw [List.flatMap_nil, pieces?]
  | cons p ps ih =>
    have hp := piece?_append (h p List.mem_cons_self) (ps.flatMap Piece.chars)
    rw [List.flatMap_cons, pieces?_of_piece? hp, ih fun q hq => h q (List.mem_cons_of_mem p hq)]
    rfl

end Markup

end DotDiagram
