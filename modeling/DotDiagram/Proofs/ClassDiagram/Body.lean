import DotDiagram.Proofs.ClassDiagram.Block
import Mathlib.Data.List.DropRight

/-! The body of a class, line by line. A line in it says a member or nothing, closes the body,
or opens a comment or goes on with one. -/

namespace DotDiagram.ClassDiagram

variable {cs line rest : List Char}

/-- Outside of comments a line that begins with the brace closes the body, other lines do not. -/
theorem body?_line (inComment : Bool) (hl : '\n' ∉ line)
    (hb : inComment = false → (skipGap line).head? ≠ some '}') (rest : List Char) :
    body? inComment (line ++ '\n' :: rest) =
      if inComment || opensComment (trim line) then body? (!closesComment (trim line)) rest
      else (body? false rest).map fun read => ((member? (trim line)).toList ++ read.1, read.2) := by
  have hfeed : '\n' ∉ skipGap line := fun h => hl ((suffix_skipGap line).subset h)
  have htake := takeLine_append hfeed rest
  obtain ⟨c, left, hcons⟩ : ∃ c left, skipGap line ++ '\n' :: rest = c :: left :=
    List.exists_cons_of_ne_nil (by simp)
  have hopen : ¬ (!inComment && c == '}') = true := by
    rw [Bool.and_eq_true, Bool.not_eq_true', beq_iff_eq]
    rintro ⟨hout, rfl⟩
    apply hb hout
    cases hskip : skipGap line with
    | nil =>
      rw [hskip] at hcons
      cases hcons
    | cons d ds =>
      rw [hskip] at hcons
      rw [(List.cons.inj hcons).1]
      rfl
  rw [hcons] at htake
  rw [body?_of_skipGap ((skipGap_newline line rest).trans hcons), if_neg hopen, htake, trim_skipGap]

theorem body?_brace (rest : List Char) : body? false ('}' :: rest) = some ([], (takeLine rest).2) :=
  body?_close (skipGap_cons (by decide) rest)

theorem body?_unclosed : body? true ['}'] = none := by
  have hskip : skipGap ['}'] = ['}'] := rfl
  have hend (inComment : Bool) : body? inComment (takeLine ['}']).2 = none :=
    body?_of_skipGap_nil inComment rfl
  rw [body?_of_skipGap hskip]
  simp [hend]

/-- What stands on the line of the opening brace is lost, unless the line ends with the
closing one. -/
theorem members?_of_open (hl : '\n' ∉ line) (hb : (trim line).getLast? ≠ some '}')
    (rest : List Char) : members? (line ++ '\n' :: rest) = body? false rest := by
  have hne : ¬ ((trim line).getLast? == some '}') = true := by simpa using hb
  rw [members?, takeLine_append hl]
  dsimp only
  rw [if_neg hne]

theorem members?_feed (rest : List Char) : members? ('\n' :: rest) = body? false rest :=
  members?_of_open (List.not_mem_nil) nofun rest

theorem members?_of_closed (hl : '\n' ∉ line)
    (hb : ∀ c ∈ (takeLine rest).1, isBlank c = true) :
    members? (line ++ '}' :: rest) = some ((member? (trim line)).toList, (takeLine rest).2) := by
  have hbrace : isBlank '}' = false := by decide
  have hspan : ∀ c ∈ line ++ ['}'], (c != '\n') = true := by
    intro c hc
    rw [bne_iff_ne]
    rintro rfl
    rcases List.mem_append.mp hc with hc | hc
    · exact hl hc
    · cases List.mem_singleton.mp hc
  have htake : takeLine (line ++ '}' :: rest) =
      (line ++ '}' :: (takeLine rest).1, (takeLine rest).2) := by
    have hcons : line ++ '}' :: rest = (line ++ ['}']) ++ rest := by simp
    rw [hcons, takeLine, List.takeWhile_append_of_pos hspan, List.dropWhile_append_of_pos hspan]
    simp [takeLine]
  have htrim : trim (line ++ '}' :: (takeLine rest).1) = trimLeft line ++ ['}'] := by
    rw [trim_append_cons hbrace, trimRight_eq_nil hb]
  have hlast : ((trimLeft line ++ ['}']).getLast? == some '}') = true := by simp
  have hidem : trim (trimLeft line) = trim line := by
    rw [trim, trim, trimLeft, trimLeft, List.dropWhile_idempotent]
  rw [members?, htake]
  dsimp only
  rw [htrim, if_pos hlast, List.dropLast_concat, hidem]

/-- Behind a closing brace that does not end its line there is more of the body. -/
theorem members?_trailed (hl : '\n' ∉ line) {tail : List Char} (ht : '\n' ∉ tail)
    (hshown : trimRight tail ≠ []) (hlast : (trimRight tail).getLast? ≠ some '}')
    (rest : List Char) :
    members? (line ++ '}' :: (tail ++ '\n' :: rest)) = body? false rest := by
  have hbrace : isBlank '}' = false := by decide
  have hfeed : '\n' ∉ line ++ '}' :: tail := by
    simp [hl, ht]
  have hopen : (trim (line ++ '}' :: tail)).getLast? ≠ some '}' := by
    obtain ⟨c, cs, hcons⟩ := List.exists_cons_of_ne_nil hshown
    rw [hcons] at hlast
    rw [trim_append_cons hbrace, hcons, List.getLast?_append_of_ne_nil _ (by simp)]
    exact hlast
  have hread := members?_of_open hfeed hopen rest
  rwa [List.append_assoc] at hread

end DotDiagram.ClassDiagram
