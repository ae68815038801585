import DotDiagram.Dot.Writer
import DotDiagram.Proofs.Dot.Legible

/-! Texts as tokens. A quoted text ends at the first quote without a backslash before
it, and markup at the bracket that matches the first one; between tokens there may be
white space. What a piece of text spells does not depend on what follows it, so the
tokens of a whole text are those of its pieces. -/

namespace DotDiagram.Dot

inductive Token where
  | word (s : String)
  | text (s : String)
  | markup (s : String)
  | link (kind : GraphKind)
  | sign (c : Char)
  deriving DecidableEq, Repr

def isSpace (c : Char) : Bool := c == ' ' || c == '\n' || c == '\t' || c == '\r'

def signs : List Char := ['\x7b', '\x7d', '[', ']', '=', ';', ',']

def isWordLetter (c : Char) : Bool := isNameLetter c || c == '.' || c == '-'

/-- A quoted text after its opening quote. A backslash stands for the character after
it. -/
def quotedText? : List Char → Option (List Char × List Char)
  | [] => none
  | '"' :: rest => some ([], rest)
  | '\\' :: c :: rest => (quotedText? rest).map fun (s, rest) => (c :: s, rest)
  | c :: rest => (quotedText? rest).map fun (s, rest) => (c :: s, rest)

/-- Markup after its opening bracket, inside which `depth` more brackets are open. -/
def markupBody? : Nat → List Char → Option (List Char × List Char)
  | _, [] => none
  | depth, '<' :: rest => (markupBody? (depth + 1) rest).map fun (s, rest) => ('<' :: s, rest)
  | 0, '>' :: rest => some ([], rest)
  | depth + 1, '>' :: rest => (markupBody? depth rest).map fun (s, rest) => ('>' :: s, rest)
  | depth, c :: rest => (markupBody? depth rest).map fun (s, rest) => (c :: s, rest)

/-- The token at the very front of a text. -/
def token? : List Char → Option (Token × List Char)
  | [] => none
  | '"' :: cs => (quotedText? cs).map fun (s, rest) => (.text (.ofList s), rest)
  | '<' :: cs => (markupBody? 0 cs).map fun (s, rest) => (.markup (.ofList s), rest)
  | '-' :: '>' :: cs => some (.link .directed, cs)
  | '-' :: '-' :: cs => some (.link .undirected, cs)
  | c :: cs =>
    if signs.contains c then some (.sign c, cs)
    else if isWordLetter c then
      some (.word (.ofList (c :: cs.takeWhile isWordLetter)), cs.dropWhile isWordLetter)
    else none

theorem length_quotedText?_lt {cs s rest : List Char} (h : quotedText? cs = some (s, rest)) :
    rest.length < cs.length := by
  fun_induction quotedText? cs generalizing s rest with
  | case1 => simp at h
  | case2 r => simp_all
  | case3 c r ih =>
    obtain ⟨⟨s', rest'⟩, hr, he⟩ := Option.map_eq_some_iff.mp h
    simp only [Prod.mk.injEq] at he
    have hl := ih hr
    simp only [← he.2, List.length_cons]
    omega
  | case4 c r _ _ ih =>
    obtain ⟨⟨s', rest'⟩, hr, he⟩ := Option.map_eq_some_iff.mp h
    simp only [Prod.mk.injEq] at he
    have hl := ih hr
    simp only [← he.2, List.length_cons]
    omega

theorem length_markupBody?_lt {depth : Nat} {cs s rest : List Char}
    (h : markupBody? depth cs = some (s, rest)) : rest.length < cs.length := by
  fun_induction markupBody? depth cs generalizing s rest with
  | case1 => simp at h
  | case3 r => simp_all
  | case2 | case4 | case5 =>
    rename_i ih
    obtain ⟨⟨s', rest'⟩, hr, he⟩ := Option.map_eq_some_iff.mp h
    simp only [Prod.mk.injEq] at he
    have hl := ih hr
    simp only [← he.2, List.length_cons]
    omega

theorem length_token?_lt {cs rest : List Char} {t : Token} (h : token? cs = some (t, rest)) :
    rest.length < cs.length := by
  unfold token? at h
  split at h
  · simp at h
  · obtain ⟨⟨s, r⟩, hr, he⟩ := Option.map_eq_some_iff.mp h
    have hl := length_quotedText?_lt hr
    simp only [Prod.mk.injEq] at he
    simp only [← he.2, List.length_cons]
    omega
  · obtain ⟨⟨s, r⟩, hr, he⟩ := Option.map_eq_some_iff.mp h
    have hl := length_markupBody?_lt hr
    simp only [Prod.mk.injEq] at he
    simp only [← he.2, List.length_cons]
    omega
  · simp only [Option.some.injEq, Prod.mk.injEq] at h
    simp only [← h.2, List.length_cons]
    omega
  · simp only [Option.some.injEq, Prod.mk.injEq] at h
    simp only [← h.2, List.length_cons]
    omega
  · next c cs _ _ _ _ =>
    have hl := (List.dropWhile_sublist isWordLetter (l := cs)).length_le
    split at h
    · simp only [Option.some.injEq, Prod.mk.injEq] at h
      simp [← h.2]
    · split at h
      · simp only [Option.some.injEq, Prod.mk.injEq] at h
        simp only [← h.2, List.length_cons]
        omega
      · simp at h

/-- All tokens of a text, if there is nothing else in it. -/
def tokens? : List Char → Option (List Token)
  | [] => some []
  | c :: cs =>
    if isSpace c then tokens? cs
    else
      match _ : token? (c :: cs) with
      | none => none
      | some (t, rest) => (tokens? rest).map (t :: ·)
  termination_by cs => cs.length
  decreasing_by
  · simp
  · exact length_token?_lt ‹_›

theorem tokens?_of_token? {c : Char} {cs rest : List Char} {t : Token} (hc : isSpace c = false)
    (h : token? (c :: cs) = some (t, rest)) : tokens? (c :: cs) = (tokens? rest).map (t :: ·) := by
  rw [tokens?, hc, if_neg Bool.false_ne_true]
  split <;> simp_all

/-- A piece of text with the tokens in it, whatever follows. -/
def Spells (cs : List Char) (ts : List Token) : Prop :=
  ∀ rest, tokens? (cs ++ rest) = (tokens? rest).map (ts ++ ·)

theorem Spells.nil : Spells [] [] := by
  intro rest
  simp

theorem Spells.append {cs ds : List Char} {ts us : List Token} (h : Spells cs ts)
    (h' : Spells ds us) : Spells (cs ++ ds) (ts ++ us) := by
  intro rest
  rw [List.append_assoc, h, h', Option.map_map]
  congr 1
  funext vs
  simp

theorem spells_space {c : Char} (hc : isSpace c = true) : Spells [c] [] := by
  intro rest
  rw [List.singleton_append, tokens?, if_pos hc]
  simp

theorem spells_of_token? {c : Char} {cs : List Char} {t : Token} (hc : isSpace c = false)
    (h : ∀ rest, token? (c :: (cs ++ rest)) = some (t, rest)) : Spells (c :: cs) [t] := by
  intro rest
  rw [List.cons_append, tokens?_of_token? hc (h rest)]
  rfl

theorem spells_sign {c : Char} (hc : c ∈ signs) : Spells [c] [.sign c] := by
  simp only [signs, List.mem_cons, List.not_mem_nil, or_false] at hc
  rcases hc with rfl | rfl | rfl | rfl | rfl | rfl | rfl <;>
    exact spells_of_token? rfl fun _ => rfl

theorem spells_link (kind : GraphKind) : Spells kind.connector.toList [.link kind] := by
  cases kind <;> exact spells_of_token? rfl fun _ => rfl

theorem quotedText?_escape (s rest : List Char) :
    quotedText? (s.flatMap escapeChar ++ '"' :: rest) = some (s, rest) := by
  induction s with
  | nil => rfl
  | cons c s ih =>
    rw [List.flatMap_cons, List.append_assoc]
    by_cases hb : c = '\\'
    · subst c
      simp [escapeChar, quotedText?, ih]
    · by_cases hq : c = '"'
      · subst c
        simp [escapeChar, quotedText?, ih]
      · simp [escapeChar, hb, hq, quotedText?, ih]

theorem spells_quoted (s : String) : Spells (quoted s).toList [.text s] := by
  have he : (quoted s).toList = '"' :: (s.toList.flatMap escapeChar ++ ['"']) := by
    simp [quoted, escape]
  rw [he]
  apply spells_of_token? rfl
  intro rest
  rw [List.append_assoc, List.singleton_append]
  simp [token?, quotedText?_escape]

/-- A body that closes the `depth` brackets open before it, and no more, is read to its
end. -/
theorem markupBody?_append {depth : Nat} {body : List Char} (rest : List Char)
    (hle : ∀ n, (body.take n).count '>' ≤ depth + (body.take n).count '<')
    (heq : body.count '>' = depth + body.count '<') :
    markupBody? depth (body ++ '>' :: rest) = some (body, rest) := by
  induction body generalizing depth with
  | nil =>
    have hz : depth = 0 := by simpa using heq.symm
    subst hz
    rfl
  | cons c body ih =>
    have hle' := fun n => hle (n + 1)
    simp only [List.take_succ_cons] at hle'
    by_cases ho : c = '<'
    · subst c
      have hb : markupBody? (depth + 1) (body ++ '>' :: rest) = some (body, rest) :=
        ih (fun n => by have hn := hle' n; simp at hn; omega) (by simp at heq; omega)
      simp [markupBody?, hb]
    · by_cases hc : c = '>'
      · subst c
        obtain ⟨d, rfl⟩ : ∃ d, depth = d + 1 := by
          have h0 := hle' 0
          simp at h0
          exact ⟨depth - 1, by omega⟩
        have hb : markupBody? d (body ++ '>' :: rest) = some (body, rest) :=
          ih (fun n => by have hn := hle' n; simp at hn; omega) (by simp at heq; omega)
        simp [markupBody?, hb]
      · have hb : markupBody? depth (body ++ '>' :: rest) = some (body, rest) :=
          ih (fun n => by have hn := hle' n; simpa [ho, hc] using hn) (by simpa [ho, hc] using heq)
        simp [markupBody?, hc, hb]

theorem spells_markup {body : String} (h : AngleBalanced body.toList) :
    Spells ("<" ++ body ++ ">").toList [.markup body] := by
  have he : ("<" ++ body ++ ">").toList = '<' :: (body.toList ++ ['>']) := by simp
  rw [he]
  apply spells_of_token? rfl
  intro rest
  have hb : markupBody? 0 (body.toList ++ '>' :: rest) = some (body.toList, rest) := by
    apply markupBody?_append
    · intro n
      by_cases hn : n ≤ body.toList.length
      · simpa using h.1 n hn
      · rw [List.take_of_length_le (by omega)]
        exact Nat.le_of_eq (by simpa using h.2.symm)
    · simpa using h.2.symm
  rw [List.append_assoc, List.singleton_append]
  simp [token?, hb]

theorem isSpace_of_isWordLetter {c : Char} (hc : isWordLetter c = true) : isSpace c = false := by
  apply Bool.eq_false_iff.mpr
  intro hs
  simp only [isSpace, Bool.or_eq_true, beq_iff_eq] at hs
  rcases hs with ((rfl | rfl) | rfl) | rfl <;> exact absurd hc (by decide)

theorem not_mem_signs_of_isWordLetter {c : Char} (hc : isWordLetter c = true) : c ∉ signs := by
  intro hs
  simp only [signs, List.mem_cons, List.not_mem_nil, or_false] at hs
  rcases hs with rfl | rfl | rfl | rfl | rfl | rfl | rfl <;> exact absurd hc (by decide)

/-- Letters of words, with no link in front. -/
def IsWord (cs : List Char) : Prop :=
  cs ≠ [] ∧ (∀ c ∈ cs, isWordLetter c = true) ∧ ∀ ds, cs ≠ ['-'] ∧ cs ≠ '-' :: '-' :: ds

theorem isWord_of_isBareName {cs : List Char} (h : isBareName cs = true) : IsWord cs := by
  cases cs with
  | nil => simp [isBareName] at h
  | cons c cs =>
    simp only [isBareName, Bool.and_eq_true, List.all_eq_true] at h
    have hm : c ≠ '-' := by
      rintro rfl
      exact absurd (h.2 '-' List.mem_cons_self) (by decide)
    refine ⟨List.cons_ne_nil c cs, ?_, by simp [hm]⟩
    intro x hx
    simp [isWordLetter, h.2 x hx]

theorem isWordLetter_of_mem_isUnsigned {cs : List Char} (h : isUnsigned cs = true) :
    ∀ c ∈ cs, isWordLetter c = true ∧ c ≠ '-' := by
  simp only [isUnsigned, Bool.and_eq_true, List.all_eq_true, Bool.or_eq_true, beq_iff_eq] at h
  intro c hc
  rcases h.2 c hc with hd | rfl
  · refine ⟨by simp [isWordLetter, isNameLetter, Char.isAlphanum, hd], ?_⟩
    rintro rfl
    exact absurd hd (by decide)
  · decide

theorem isWord_of_isNumeral {cs : List Char} (h : isNumeral cs = true) : IsWord cs := by
  unfold isNumeral at h
  split at h
  · next cs =>
    have hu := isWordLetter_of_mem_isUnsigned h
    have hne : cs ≠ [] := by
      rintro rfl
      exact absurd h (by decide)
    refine ⟨List.cons_ne_nil _ _, ?_, ?_⟩
    · intro c hc
      rcases List.mem_cons.mp hc with rfl | hc
      · decide
      · exact (hu c hc).1
    · intro ds
      refine ⟨by simpa using hne, ?_⟩
      rintro he
      exact (hu '-' (by simp [(List.cons.inj he).2])).2 rfl
  · have hu := isWordLetter_of_mem_isUnsigned h
    have hne : cs ≠ [] := by
      rintro rfl
      exact absurd h (by decide)
    refine ⟨hne, fun c hc => (hu c hc).1, fun ds => ⟨?_, ?_⟩⟩ <;> rintro rfl <;>
      exact (hu '-' List.mem_cons_self).2 rfl

theorem isWord_of_isKey {key : String} (h : isKey key = true) : IsWord key.toList := by
  simp only [isKey, Bool.and_eq_true, Bool.or_eq_true] at h
  rcases h.1 with hn | hn
  · exact isWord_of_isBareName hn
  · exact isWord_of_isNumeral hn

theorem token?_word {cs rest : List Char} (hw : IsWord cs)
    (hr : ∀ x ∈ rest.head?, isWordLetter x = false) :
    token? (cs ++ rest) = some (.word (.ofList cs), rest) := by
  obtain ⟨hne, hletters, hlink⟩ := hw
  obtain ⟨c, cs, rfl⟩ := List.exists_cons_of_ne_nil hne
  have hc := hletters c List.mem_cons_self
  have hcs : ∀ x ∈ cs, isWordLetter x = true := fun x hx => hletters x (List.mem_cons_of_mem c hx)
  have htake : (cs ++ rest).takeWhile isWordLetter = cs := by
    rw [List.takeWhile_append_of_pos hcs]
    cases rest with
    | nil => simp
    | cons x rest => simp [hr x rfl]
  have hdrop : (cs ++ rest).dropWhile isWordLetter = rest := by
    rw [List.dropWhile_append_of_pos hcs]
    cases rest with
    | nil => rfl
    | cons x rest => simp [hr x rfl]
  have hq : c ≠ '"' := by rintro rfl; exact absurd hc (by decide)
  have ha : c ≠ '<' := by rintro rfl; exact absurd hc (by decide)
  have hs := not_mem_signs_of_isWordLetter hc
  by_cases hm : c = '-'
  · subst hm
    cases cs with
    | nil => exact absurd rfl (hlink []).1
    | cons d ds =>
      have hd : d ≠ '-' := by rintro rfl; exact (hlink ds).2 rfl
      have hd' : d ≠ '>' := by rintro rfl; exact absurd (hcs '>' List.mem_cons_self) (by decide)
      simp only [List.cons_append] at htake hdrop
      simp [token?, hd, hd', hs, hc, htake, hdrop]
  · simp [token?, hm, hs, hc, htake, hdrop]

theorem spells_word {word : String} {stop : Char} {ts : List Token} (hw : IsWord word.toList)
    (hstop : isWordLetter stop = false) (hs : Spells [stop] ts) :
    Spells (word.toList ++ [stop]) (.word word :: ts) := by
  intro rest
  have ht : token? (word.toList ++ stop :: rest) = some (.word word, stop :: rest) := by
    rw [token?_word hw (by simpa using hstop), String.ofList_toList]
  have hh := hs rest
  obtain ⟨hne, hletters, _⟩ := hw
  obtain ⟨c, cs, he⟩ := List.exists_cons_of_ne_nil hne
  have hc := isSpace_of_isWordLetter (hletters c (he ▸ List.mem_cons_self))
  rw [he, List.cons_append] at ht
  rw [List.singleton_append] at hh
  rw [he, List.append_assoc, List.singleton_append, List.cons_append, tokens?_of_token? hc ht, hh,
    Option.map_map]
  rfl

theorem spells_key {key : String} (h : isKey key = true) :
    Spells (key ++ "=").toList [.word key, .sign '='] := by
  rw [String.toList_append]
  exact spells_word (isWord_of_isKey h) (by decide) (spells_sign (by decide))

theorem spells_keyword {word : String} (h : isBareName word.toList = true) :
    Spells (word ++ " ").toList [.word word] := by
  rw [String.toList_append]
  exact spells_word (isWord_of_isBareName h) (by decide) (spells_space (by decide))

end DotDiagram.Dot
