/-! Reading from the front of a text: each reader returns what remains, and its
lemma says how much shorter that is. -/

namespace DotDiagram

/-- Spaces and tabs. -/
def isGap (c : Char) : Bool := c == ' ' || c == '\t'

def skipGap (cs : List Char) : List Char := cs.dropWhile isGap

/-- The rest after a literal word. -/
def after? : List Char → List Char → Option (List Char)
  | [], cs => some cs
  | _ :: _, [] => none
  | w :: ws, c :: cs => if c = w then after? ws cs else none

/-- The rest after a word written in any ASCII case; the word itself is in lower case. -/
def afterIgnoringCase? : List Char → List Char → Option (List Char)
  | [], cs => some cs
  | _ :: _, [] => none
  | w :: ws, c :: cs => if c.toLower = w then afterIgnoringCase? ws cs else none

/-- The text before the first occurrence of a mark, and the text after it. -/
def splitAtFirst? (mark : List Char) : List Char → Option (List Char × List Char)
  | [] => (after? mark []).map fun rest => ([], rest)
  | c :: cs =>
    match after? mark (c :: cs) with
    | some rest => some ([], rest)
    | none => (splitAtFirst? mark cs).map fun (before, rest) => (c :: before, rest)

/-- The rest of the line and the text after its line feed. -/
def takeLine (cs : List Char) : List Char × List Char :=
  (cs.takeWhile (· != '\n'), (cs.dropWhile (· != '\n')).drop 1)

/-- The rest after one line feed, with or without a carriage return. -/
def lineEnd? : List Char → Option (List Char)
  | '\n' :: cs => some cs
  | '\r' :: '\n' :: cs => some cs
  | _ => none

theorem length_dropWhile_le (p : Char → Bool) (cs : List Char) :
    (cs.dropWhile p).length ≤ cs.length :=
  (List.dropWhile_sublist p).length_le

theorem length_skipGap_le (cs : List Char) : (skipGap cs).length ≤ cs.length :=
  length_dropWhile_le isGap cs

theorem length_of_after? {word cs rest : List Char} (h : after? word cs = some rest) :
    rest.length + word.length = cs.length := by
  induction word generalizing cs with
  | nil => simp_all [after?]
  | cons w ws ih =>
    cases cs with
    | nil => simp [after?] at h
    | cons c cs =>
      simp only [after?] at h
      split at h
      · have hl := ih h
        simp only [List.length_cons]
        omega
      · simp at h

theorem length_of_afterIgnoringCase? {word cs rest : List Char}
    (h : afterIgnoringCase? word cs = some rest) : rest.length + word.length = cs.length := by
  induction word generalizing cs with
  | nil => simp_all [afterIgnoringCase?]
  | cons w ws ih =>
    cases cs with
    | nil => simp [afterIgnoringCase?] at h
    | cons c cs =>
      simp only [afterIgnoringCase?] at h
      split at h
      · have hl := ih h
        simp only [List.length_cons]
        omega
      · simp at h

theorem length_of_splitAtFirst? {mark cs before rest : List Char}
    (h : splitAtFirst? mark cs = some (before, rest)) :
    before.length + mark.length + rest.length = cs.length := by
  induction cs generalizing before with
  | nil =>
    simp only [splitAtFirst?, Option.map_eq_some_iff] at h
    obtain ⟨r, hr, he⟩ := h
    have hl := length_of_after? hr
    simp_all
  | cons c cs ih =>
    simp only [splitAtFirst?] at h
    split at h
    · next r hr =>
      have hl := length_of_after? hr
      simp_all
      omega
    · next hn =>
      simp only [Option.map_eq_some_iff] at h
      obtain ⟨⟨b, r⟩, hr, he⟩ := h
      simp only [Prod.mk.injEq] at he
      obtain ⟨rfl, rfl⟩ := he
      have hl := ih hr
      simp only [List.length_cons]
      omega

theorem length_takeLine_le (cs : List Char) : (takeLine cs).2.length ≤ cs.length := by
  have h := length_dropWhile_le (· != '\n') cs
  simp only [takeLine, List.length_drop]
  omega

theorem length_takeLine_lt {cs : List Char} (h : cs ≠ []) :
    (takeLine cs).2.length < cs.length := by
  cases cs with
  | nil => exact absurd rfl h
  | cons c cs =>
    have hl := length_dropWhile_le (· != '\n') cs
    simp only [takeLine, List.dropWhile_cons, List.length_drop, List.length_cons]
    split
    · omega
    · simp

theorem length_lineEnd?_lt {cs rest : List Char} (h : lineEnd? cs = some rest) :
    rest.length < cs.length := by
  unfold lineEnd? at h
  split at h
  · simp only [Option.some.injEq] at h
    rw [← h]
    simp only [List.length_cons]
    omega
  · simp only [Option.some.injEq] at h
    rw [← h]
    simp only [List.length_cons]
    omega
  · exact absurd h (by simp)

end DotDiagram
