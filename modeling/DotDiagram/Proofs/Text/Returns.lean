import DotDiagram.Proofs.Text.Following
import DotDiagram.Proofs.Text.Trim

/-! Line feeds with carriage returns before them. What is read up to a line feed is read up to
the carriage return, and trimmed they are the same. -/

namespace DotDiagram

/-- With a carriage return before each line feed. -/
def returned (cs : List Char) : List Char :=
  cs.flatMap fun c => if c = '\n' then ['\r', '\n'] else [c]

variable {p : Char → Bool} {word cs line : List Char}

theorem returned_cons {c : Char} (hc : c ≠ '\n') (cs : List Char) :
    returned (c :: cs) = c :: returned cs := by
  rw [returned, List.flatMap_cons, if_neg hc]
  rfl

theorem returned_feed (cs : List Char) : returned ('\n' :: cs) = '\r' :: '\n' :: returned cs := rfl

theorem returned_of_not_mem (h : '\n' ∉ cs) : returned cs = cs := by
  induction cs with
  | nil => rfl
  | cons c cs ih =>
    rw [List.mem_cons, not_or] at h
    rw [returned_cons (Ne.symm h.1), ih h.2]

theorem returned_eq_self : returned cs = cs ↔ '\n' ∉ cs := by
  refine ⟨fun h => ?_, returned_of_not_mem⟩
  induction cs with
  | nil => exact List.not_mem_nil
  | cons c cs ih =>
    by_cases hc : c = '\n'
    · rw [hc, returned_feed, List.cons.injEq] at h
      exact absurd h.1 (by decide)
    · rw [returned_cons hc, List.cons.injEq] at h
      rw [List.mem_cons, not_or]
      exact ⟨Ne.symm hc, ih h.2⟩

theorem returned_append (cs ds : List Char) : returned (cs ++ ds) = returned cs ++ returned ds :=
  List.flatMap_append

theorem returned_eq_nil : returned cs = [] ↔ cs = [] := by
  cases cs with
  | nil => exact Iff.rfl
  | cons c cs =>
    by_cases hc : c = '\n'
    · rw [hc, returned_feed]
      simp
    · rw [returned_cons hc]
      simp

theorem isEmpty_returned (cs : List Char) : (returned cs).isEmpty = cs.isEmpty := by
  rw [Bool.eq_iff_iff, List.isEmpty_iff, List.isEmpty_iff, returned_eq_nil]

theorem writesBlanks_returned :
    WritesBlanks (fun c => if c = '\n' then ['\r', '\n'] else [c]) isBlank where
  blanks c hc := by
    split
    · exact List.all_eq_true.mp rfl
    · simpa using hc
  head c hc := by
    have hne : c ≠ '\n' := by
      rintro rfl
      cases hc
    rw [if_neg hne]
    exact ⟨c, rfl, hc⟩
  last c hc := by
    have hne : c ≠ '\n' := by
      rintro rfl
      cases hc
    rw [if_neg hne]
    exact ⟨c, rfl, hc⟩

theorem trimLeft_returned (cs : List Char) : trimLeft (returned cs) = returned (trimLeft cs) :=
  writesBlanks_returned.trimLeft_flatMap cs

theorem trim_returned (cs : List Char) : trim (returned cs) = returned (trim cs) :=
  writesBlanks_returned.trim_flatMap cs

theorem takeWhile_returned (hn : p '\n' = false) (hr : p '\r' = false) (cs : List Char) :
    (returned cs).takeWhile p = cs.takeWhile p := by
  induction cs with
  | nil => rfl
  | cons c cs ih =>
    by_cases hc : c = '\n'
    · rw [hc, returned_feed]
      simp [hn, hr]
    · rw [returned_cons hc, List.takeWhile_cons, List.takeWhile_cons, ih]

theorem dropWhile_returned (hn : p '\n' = false) (hr : p '\r' = false) (cs : List Char) :
    (returned cs).dropWhile p = returned (cs.dropWhile p) := by
  induction cs with
  | nil => rfl
  | cons c cs ih =>
    by_cases hc : c = '\n'
    · rw [hc, returned_feed]
      simp [hn, hr, returned_feed]
    · rw [returned_cons hc, List.dropWhile_cons, List.dropWhile_cons, ih]
      split
      · rfl
      · rw [returned_cons hc]

theorem after?_returned (hn : '\n' ∉ word) (hr : '\r' ∉ word) (cs : List Char) :
    after? word (returned cs) = (after? word cs).map returned := by
  induction word generalizing cs with
  | nil => rfl
  | cons w ws ih =>
    rw [List.mem_cons, not_or] at hn hr
    cases cs with
    | nil => rfl
    | cons c cs =>
      by_cases hc : c = '\n'
      · rw [hc, returned_feed, after?_cons_of_ne _ _ hr.1, after?_cons_of_ne _ _ hn.1]
        rfl
      · rw [returned_cons hc, after?, after?, ih hn.2 hr.2]
        split <;> rfl

theorem afterIgnoringCase?_returned (hn : '\n' ∉ word) (hr : '\r' ∉ word) (cs : List Char) :
    afterIgnoringCase? word (returned cs) = (afterIgnoringCase? word cs).map returned := by
  induction word generalizing cs with
  | nil => rfl
  | cons w ws ih =>
    rw [List.mem_cons, not_or] at hn hr
    cases cs with
    | nil => rfl
    | cons c cs =>
      by_cases hc : c = '\n'
      · have hfeed : Char.toLower '\n' ≠ w := hn.1
        have hreturn : Char.toLower '\r' ≠ w := hr.1
        rw [hc, returned_feed, afterIgnoringCase?_cons_of_ne _ _ hreturn,
          afterIgnoringCase?_cons_of_ne _ _ hfeed]
        rfl
      · rw [returned_cons hc, afterIgnoringCase?, afterIgnoringCase?, ih hn.2 hr.2]
        split <;> rfl

theorem Linewise.returned : Linewise returned where
  takeWhile_eq := takeWhile_returned
  dropWhile_eq := dropWhile_returned
  after_eq := after?_returned
  afterIgnoringCase_eq := afterIgnoringCase?_returned

theorem splitAtFirst?_returned {a : Char} {mark : List Char} (hn : '\n' ∉ a :: mark)
    (hr : '\r' ∉ a :: mark) (cs : List Char) :
    splitAtFirst? (a :: mark) (returned cs) =
      (splitAtFirst? (a :: mark) cs).map fun split => (returned split.1, returned split.2) := by
  induction cs with
  | nil => rfl
  | cons c cs ih =>
    by_cases hc : c = '\n'
    · rw [List.mem_cons, not_or] at hn hr
      rw [hc, returned_feed, splitAtFirst?, after?_cons_of_ne _ _ hr.1, splitAtFirst?,
        after?_cons_of_ne _ _ hn.1, splitAtFirst?, after?_cons_of_ne _ _ hn.1, ih]
      cases splitAtFirst? (a :: mark) cs <;> rfl
    · have hafter := after?_returned hn hr (c :: cs)
      rw [returned_cons hc] at hafter ⊢
      rw [splitAtFirst?, splitAtFirst?, hafter, ih]
      cases after? (a :: mark) (c :: cs) with
      | some left => rfl
      | none =>
        cases splitAtFirst? (a :: mark) cs with
        | none => rfl
        | some split =>
          obtain ⟨before, left⟩ := split
          simp [returned_cons hc]

/-- A line is longer by the carriage return, if it has an end. -/
theorem takeLine_returned (cs : List Char) :
    takeLine (returned cs) =
      ((takeLine cs).1 ++ (if '\n' ∈ cs then ['\r'] else []), returned (takeLine cs).2) := by
  by_cases hfeed : '\n' ∈ cs
  · obtain ⟨line, below, rfl, hline⟩ := List.eq_append_cons_of_mem hfeed
    have hreturn : '\n' ∉ line ++ ['\r'] := by simp [hline]
    have hcons : returned (line ++ '\n' :: below) = (line ++ ['\r']) ++ '\n' :: returned below := by
      rw [returned_append, returned_of_not_mem hline, returned_feed]
      simp
    rw [hcons, takeLine_append hreturn, takeLine_append hline, if_pos hfeed]
  · have hall : ∀ c ∈ cs, (c != '\n') = true := by
      intro c hc
      rw [bne_iff_ne]
      rintro rfl
      exact hfeed hc
    rw [returned_of_not_mem hfeed, if_neg hfeed, List.append_nil, takeLine, dropWhile_eq_nil hall]
    rfl

theorem below_returned (cs : List Char) :
    (takeLine (returned cs)).2 = returned (takeLine cs).2 := by
  rw [takeLine_returned]

theorem trim_takeLine_returned (cs : List Char) :
    trim (takeLine (returned cs)).1 = trim (takeLine cs).1 := by
  rw [takeLine_returned]
  apply trim_append_blanks
  split
  · exact List.all_eq_true.mp rfl
  · nofun

theorem lineEnd?_returned (hr : '\r' ∉ cs) :
    lineEnd? (returned cs) = (lineEnd? cs).map returned := by
  cases cs with
  | nil => rfl
  | cons c cs =>
    rw [List.mem_cons, not_or] at hr
    by_cases hc : c = '\n'
    · rw [hc]
      rfl
    · rw [returned_cons hc, lineEnd?_of_head? hc (Ne.symm hr.1), lineEnd?_of_head? hc (Ne.symm hr.1)]
      rfl

end DotDiagram
