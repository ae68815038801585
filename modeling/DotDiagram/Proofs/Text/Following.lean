import DotDiagram.Proofs.Text.Scan

/-! Reading on. What is read from a text is read from it also when more follows on a new line,
for no word that is looked for holds a line feed. -/

namespace DotDiagram

/-- What is left of a text, and what is left of it when `below` follows on a new line. The line
feed between may have been read as the end of the text's last line. -/
inductive Continued (below : List Char) : List Char → List Char → Prop where
  | onward (rest : List Char) : Continued below rest (rest ++ '\n' :: below)
  | ended : Continued below [] below
  | endedByReturn : Continued below ['\r'] below

section

variable {p : Char → Bool} {word mark text cs rest below : List Char}

theorem takeWhile_newline (hp : p '\n' = false) (cs below : List Char) :
    (cs ++ '\n' :: below).takeWhile p = cs.takeWhile p := by
  induction cs with
  | nil => simp [hp]
  | cons c cs ih => simp only [List.cons_append, List.takeWhile_cons, ih]

theorem dropWhile_newline (hp : p '\n' = false) (cs below : List Char) :
    (cs ++ '\n' :: below).dropWhile p = cs.dropWhile p ++ '\n' :: below := by
  induction cs with
  | nil => simp [hp]
  | cons c cs ih =>
    rw [List.cons_append, List.dropWhile_cons, List.dropWhile_cons, ih]
    split <;> rfl

theorem skipGap_newline (cs below : List Char) :
    skipGap (cs ++ '\n' :: below) = skipGap cs ++ '\n' :: below :=
  dropWhile_newline rfl cs below

theorem after?_newline (hw : '\n' ∉ word) (cs below : List Char) :
    after? word (cs ++ '\n' :: below) = (after? word cs).map (· ++ '\n' :: below) := by
  induction word generalizing cs with
  | nil => rfl
  | cons w ws ih =>
    rw [List.mem_cons, not_or] at hw
    obtain ⟨hne, hws⟩ := hw
    cases cs with
    | nil => exact after?_cons_of_ne _ _ hne
    | cons c cs =>
      rw [List.cons_append, after?, after?, ih hws]
      split <;> rfl

theorem afterIgnoringCase?_newline (hw : '\n' ∉ word) (cs below : List Char) :
    afterIgnoringCase? word (cs ++ '\n' :: below) =
      (afterIgnoringCase? word cs).map (· ++ '\n' :: below) := by
  induction word generalizing cs with
  | nil => rfl
  | cons w ws ih =>
    rw [List.mem_cons, not_or] at hw
    obtain ⟨hne, hws⟩ := hw
    cases cs with
    | nil => exact afterIgnoringCase?_cons_of_ne _ _ hne
    | cons c cs =>
      rw [List.cons_append, afterIgnoringCase?, afterIgnoringCase?, ih hws]
      split <;> rfl

/-- A change that no reader of a line notices before the line ends. -/
structure Linewise (change : List Char → List Char) : Prop where
  takeWhile_eq : ∀ {p : Char → Bool}, p '\n' = false → p '\r' = false →
    ∀ cs, (change cs).takeWhile p = cs.takeWhile p
  dropWhile_eq : ∀ {p : Char → Bool}, p '\n' = false → p '\r' = false →
    ∀ cs, (change cs).dropWhile p = change (cs.dropWhile p)
  after_eq : ∀ {word : List Char}, '\n' ∉ word → '\r' ∉ word →
    ∀ cs, after? word (change cs) = (after? word cs).map change
  afterIgnoringCase_eq : ∀ {word : List Char}, '\n' ∉ word → '\r' ∉ word →
    ∀ cs, afterIgnoringCase? word (change cs) = (afterIgnoringCase? word cs).map change

theorem Linewise.newline (below : List Char) : Linewise (· ++ '\n' :: below) where
  takeWhile_eq hp _ cs := takeWhile_newline hp cs below
  dropWhile_eq hp _ cs := dropWhile_newline hp cs below
  after_eq hw _ cs := after?_newline hw cs below
  afterIgnoringCase_eq hw _ cs := afterIgnoringCase?_newline hw cs below

theorem Linewise.skipGap_eq {change : List Char → List Char} (h : Linewise change)
    (cs : List Char) : skipGap (change cs) = change (skipGap cs) :=
  h.dropWhile_eq rfl rfl cs

/-- A mark that is missing may still follow. -/
theorem splitAtFirst?_newline (hm : '\n' ∉ mark) (h : splitAtFirst? mark cs = some (text, rest))
    (below : List Char) :
    splitAtFirst? mark (cs ++ '\n' :: below) = some (text, rest ++ '\n' :: below) := by
  induction cs generalizing text with
  | nil =>
    obtain ⟨left, hl, heq⟩ := Option.map_eq_some_iff.mp h
    cases heq
    rw [List.nil_append, splitAtFirst?, ← List.nil_append ('\n' :: below), after?_newline hm, hl]
    rfl
  | cons c cs ih =>
    rw [List.cons_append, splitAtFirst?, ← List.cons_append, after?_newline hm]
    rw [splitAtFirst?] at h
    cases ha : after? mark (c :: cs) with
    | some left =>
      rw [ha] at h
      cases h
      rfl
    | none =>
      rw [ha] at h
      obtain ⟨⟨before, left⟩, hs, heq⟩ := Option.map_eq_some_iff.mp h
      cases heq
      rw [Option.map_none, ih hs]
      rfl

theorem takeLine_newline (cs below : List Char) :
    (takeLine (cs ++ '\n' :: below)).1 = (takeLine cs).1 ∧
      Continued below (takeLine cs).2 (takeLine (cs ++ '\n' :: below)).2 := by
  refine ⟨takeWhile_newline rfl cs below, ?_⟩
  simp only [takeLine, dropWhile_newline (p := (· != '\n')) rfl cs below]
  cases cs.dropWhile (· != '\n') with
  | nil => exact .ended
  | cons c cs => exact .onward cs

theorem lineEnd?_newline (h : lineEnd? cs = some rest) (below : List Char) :
    lineEnd? (cs ++ '\n' :: below) = some (rest ++ '\n' :: below) := by
  unfold lineEnd? at h
  split at h
  · cases h
    rfl
  · cases h
    rfl
  · cases h

theorem lineEnd?_return {d : Char} (hd : d ≠ '\n') (cs : List Char) :
    lineEnd? ('\r' :: d :: cs) = none := by
  unfold lineEnd?
  split
  · next heq => cases heq
  · next heq =>
    cases heq
    exact absurd rfl hd
  · rfl

/-- The line feed that follows can only end a line that is empty, or lacks nothing else. -/
theorem lineEnd?_newline_of_none (h : lineEnd? cs = none) (below : List Char) :
    cs = [] ∨ cs = ['\r'] ∨ lineEnd? (cs ++ '\n' :: below) = none := by
  cases cs with
  | nil => exact .inl rfl
  | cons c cs =>
    by_cases hn : c = '\n'
    · rw [hn] at h
      cases h
    · by_cases hr : c = '\r'
      · cases cs with
        | nil => exact .inr (.inl (by rw [hr]))
        | cons d cs =>
          have hd : d ≠ '\n' := by
            rintro rfl
            rw [hr] at h
            cases h
          rw [hr]
          exact .inr (.inr (lineEnd?_return hd _))
      · exact .inr (.inr (lineEnd?_of_head? hn hr))

end

section

variable {word mark text cs rest : List Char}

theorem suffix_skipGap (cs : List Char) : skipGap cs <:+ cs := List.dropWhile_suffix _

theorem eq_of_after? (h : after? word cs = some rest) : cs = word ++ rest := by
  induction word generalizing cs with
  | nil => exact Option.some.inj h
  | cons w ws ih =>
    cases cs with
    | nil => cases h
    | cons c cs =>
      rw [after?] at h
      split at h
      · next heq => rw [heq, List.cons_append, ← ih h]
      · cases h

theorem suffix_of_after? (h : after? word cs = some rest) : rest <:+ cs :=
  ⟨word, (eq_of_after? h).symm⟩

theorem suffix_of_afterIgnoringCase? (h : afterIgnoringCase? word cs = some rest) :
    rest <:+ cs := by
  induction word generalizing cs with
  | nil =>
    cases h
    exact List.suffix_refl _
  | cons w ws ih =>
    cases cs with
    | nil => cases h
    | cons c cs =>
      rw [afterIgnoringCase?] at h
      split at h
      · exact (ih h).trans (List.suffix_cons c cs)
      · cases h

theorem suffix_of_splitAtFirst? (h : splitAtFirst? mark cs = some (text, rest)) :
    rest <:+ cs := by
  induction cs generalizing text with
  | nil =>
    obtain ⟨left, hl, heq⟩ := Option.map_eq_some_iff.mp h
    cases heq
    exact suffix_of_after? hl
  | cons c cs ih =>
    rw [splitAtFirst?] at h
    split at h
    · next left ha =>
      cases h
      exact suffix_of_after? ha
    · obtain ⟨⟨before, left⟩, hs, heq⟩ := Option.map_eq_some_iff.mp h
      cases heq
      exact (ih hs).trans (List.suffix_cons c cs)

/-- The mark stands right behind the text before it, and no sooner. -/
theorem eq_of_splitAtFirst? {a b : Char} (h : splitAtFirst? [a, b] cs = some (text, rest)) :
    cs = text ++ a :: b :: rest ∧ ¬ [a, b] <:+: text ++ [a] := by
  induction cs generalizing text with
  | nil => cases h
  | cons c cs ih =>
    rw [splitAtFirst?] at h
    split at h
    · next left ha =>
      cases h
      have hmark : c :: cs = [a, b] ++ rest := eq_of_after? ha
      exact ⟨hmark, fun hi => absurd hi.length_le (by simp)⟩
    · next hnone =>
      obtain ⟨⟨before, left⟩, hs, heq⟩ := Option.map_eq_some_iff.mp h
      cases heq
      obtain ⟨rfl, hfree⟩ := ih hs
      refine ⟨rfl, fun hi => ?_⟩
      rcases List.infix_cons_iff.mp hi with hp | hi
      · -- Else the mark had been found at the first character.
        rw [List.cons_prefix_cons] at hp
        obtain ⟨rfl, tail, hb⟩ := hp
        have hfollow : ∃ left, before ++ a :: b :: rest = b :: left := by
          cases before with
          | nil => exact ⟨_, by rw [(List.cons.inj hb).1]; rfl⟩
          | cons d ds => exact ⟨_, by rw [(List.cons.inj hb).1]; rfl⟩
        obtain ⟨left, hleft⟩ := hfollow
        rw [hleft, after?, if_pos rfl, after?, if_pos rfl] at hnone
        cases hnone
      · exact hfree hi

theorem suffix_takeLine (cs : List Char) : (takeLine cs).2 <:+ cs :=
  (List.drop_suffix 1 _).trans (List.dropWhile_suffix _)

theorem suffix_of_lineEnd? (h : lineEnd? cs = some rest) : rest <:+ cs := by
  unfold lineEnd? at h
  split at h
  · cases h
    exact List.suffix_cons _ _
  · cases h
    exact List.suffix_append ['\r', '\n'] _
  · cases h

end

end DotDiagram
