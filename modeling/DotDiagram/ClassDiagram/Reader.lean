import DotDiagram.ClassDiagram.Basic
import DotDiagram.Error
import DotDiagram.Text.Blank
import DotDiagram.Text.Letters
import DotDiagram.Text.Scan

/-! Reading class diagrams. A text is a sequence of items: class blocks, relations,
comments, directives and blank lines. Every item that is read shortens the text,
so reading ends, and what no item can be read from is reported. -/

namespace DotDiagram.ClassDiagram

def isNameChar (c : Char) : Bool := isLetterOrDigit c || c == '_'

def name? (cs : List Char) : Option (String × List Char) :=
  let name := cs.takeWhile isNameChar
  if name.isEmpty then none else some (String.ofList name, cs.dropWhile isNameChar)

/-- One or more spaces and tabs. -/
def gap? : List Char → Option (List Char)
  | c :: cs => if isGap c then some (skipGap cs) else none
  | [] => none

def abstractWords? (cs : List Char) : Option (List Char) :=
  (afterIgnoringCase? "abstract".toList cs).bind fun cs =>
    (gap? cs).bind fun cs => afterIgnoringCase? "class".toList cs

def kind? (cs : List Char) : Option (ClassKind × List Char) :=
  match abstractWords? cs with
  | some rest => some (.abstract, rest)
  | none =>
    match afterIgnoringCase? "class".toList cs with
    | some rest => some (.concrete, rest)
    | none =>
      match afterIgnoringCase? "interface".toList cs with
      | some rest => some (.interface, rest)
      | none =>
        match afterIgnoringCase? "enum".toList cs with
        | some rest => some (.enumeration, rest)
        | none => none

/-- The text between the angle brackets may not be empty, but may be blank. -/
def stereotype? (cs : List Char) : Option (String × List Char) :=
  match after? "<<".toList cs with
  | none => none
  | some cs =>
    match splitAtFirst? ">>".toList cs with
    | none => none
    | some (text, rest) =>
      if text.isEmpty then none else some (String.ofList (trim text), rest)

/-- A stereotype after optional spaces, if there is one. -/
def optionalStereotype (cs : List Char) : Option String × List Char :=
  match stereotype? (skipGap cs) with
  | some (text, rest) => (some text, rest)
  | none => (none, cs)

/-- A member is any line that is neither empty nor a comment. -/
def member? (line : List Char) : Option String :=
  match line with
  | [] => none
  | '\'' :: _ => none
  | _ => some (String.ofList line)

def isMethod (member : String) : Bool :=
  member.toList.contains '(' && member.toList.contains ')'

def opensComment (line : List Char) : Bool := "/'".toList.isPrefixOf line

def closesComment (line : List Char) : Bool := "'/".toList.isSuffixOf line

/-- The members up to the line that begins with the closing brace; that line is
dropped whole. A block comment lasts to the end of the line that ends with its
closing mark. -/
def body? (inComment : Bool) (cs : List Char) : Option (List String × List Char) :=
  match _ : skipGap cs with
  | [] => none
  | c :: rest =>
    if !inComment && c == '}' then some ([], (takeLine rest).2)
    else
      let line := trim (takeLine (c :: rest)).1
      let below := (takeLine (c :: rest)).2
      if inComment || opensComment line then body? (!closesComment line) below
      else
        match body? false below with
        | none => none
        | some (members, rest) => some ((member? line).toList ++ members, rest)
  termination_by cs.length
  decreasing_by
    all_goals
      have hl := length_skipGap_le cs
      have ht := length_takeLine_lt (List.cons_ne_nil c rest)
      simp_all
      omega

/-- What stands after the opening brace counts only if the line ends with the
closing one. -/
def members? (cs : List Char) : Option (List String × List Char) :=
  let header := trim (takeLine cs).1
  if header.getLast? == some '}' then
    some ((member? (trim header.dropLast)).toList, (takeLine cs).2)
  else body? false (takeLine cs).2

def ofMembers (kind : ClassKind) (name : String) (stereotype : Option String)
    (members : List String) : ClassDecl :=
  ⟨kind, name, stereotype, members.filter fun m => !isMethod m, members.filter isMethod⟩

def class? (cs : List Char) : Option (ClassDecl × List Char) :=
  match kind? cs with
  | none => none
  | some (kind, cs) =>
    match (gap? cs).bind name? with
    | none => none
    | some (name, cs) =>
      let stereotype := optionalStereotype cs
      match (after? ['{'] (skipGap stereotype.2)).bind members? with
      | none => none
      | some (members, rest) => some (ofMembers kind name stereotype.1 members, rest)

/-- The arrows, tried in this order. An arrow is reversed if its target stands on
the left. -/
def arrows : List (String × RelationKind × Bool) :=
  [("<|--", .inheritance, true), ("<|..", .implements, true), ("--|>", .inheritance, false),
    ("..|>", .implements, false), ("*--", .composition, false), ("o--", .aggregation, false),
    ("-->", .association, false), ("..>", .dependency, false)]

def arrow? (cs : List Char) : Option ((RelationKind × Bool) × List Char) :=
  arrows.findSome? fun (word, meaning) =>
    (after? word.toList cs).map fun rest => (meaning, rest)

/-- A colon and the rest of the line, which may not be empty. -/
def label? (cs : List Char) : Option (String × List Char) :=
  match after? [':'] (skipGap cs) with
  | none => none
  | some cs =>
    let text := (skipGap cs).takeWhile (· != '\n')
    if text.isEmpty then none
    else some (String.ofList (trim text), (skipGap cs).dropWhile (· != '\n'))

/-- A label of nothing but white space is no label. -/
def optionalLabel (cs : List Char) : Option String × List Char :=
  match label? cs with
  | some (text, rest) => (if text.isEmpty then none else some text, rest)
  | none => (none, cs)

def skipLineEnd (cs : List Char) : List Char := (lineEnd? cs).getD cs

def relation? (cs : List Char) : Option (Relation × List Char) :=
  match name? cs with
  | none => none
  | some (left, cs) =>
    match arrow? (skipGap cs) with
    | none => none
    | some ((kind, reversed), cs) =>
      match name? (skipGap cs) with
      | none => none
      | some (right, cs) =>
        let label := optionalLabel cs
        let (source, target) := if reversed then (right, left) else (left, right)
        some (⟨source, target, kind, label.1⟩, skipLineEnd (skipGap label.2))

inductive Item where
  | silent
  | declared (c : ClassDecl)
  | related (r : Relation)
  deriving DecidableEq, Repr

/-- Blank lines, comments and directives say nothing. -/
def silent? (cs : List Char) : Option (List Char) :=
  match lineEnd? cs with
  | some rest => some rest
  | none =>
    match cs with
    | '\'' :: cs => some (takeLine cs).2
    | '/' :: '\'' :: cs => (splitAtFirst? "'/".toList cs).map fun split => (takeLine split.2).2
    | '@' :: cs => some (takeLine cs).2
    | _ => none

def itemAt? (cs : List Char) : Option (Item × List Char) :=
  match silent? cs with
  | some rest => some (.silent, rest)
  | none =>
    match class? cs with
    | some (c, rest) => some (.declared c, rest)
    | none =>
      match relation? cs with
      | some (r, rest) => some (.related r, rest)
      | none => none

def item? (cs : List Char) : Option (Item × List Char) := itemAt? (skipGap cs)

theorem length_name?_lt {cs rest : List Char} {name : String}
    (h : name? cs = some (name, rest)) : rest.length < cs.length := by
  unfold name? at h
  cases cs with
  | nil => simp at h
  | cons c cs =>
    by_cases hc : isNameChar c = true
    · simp only [List.takeWhile_cons, List.dropWhile_cons, hc, if_true] at h
      simp only [List.isEmpty_cons, Bool.false_eq_true, if_false, Option.some.injEq,
        Prod.mk.injEq] at h
      have hl := length_dropWhile_le isNameChar cs
      rw [← h.2]
      simp only [List.length_cons]
      omega
    · simp [hc] at h

theorem length_gap?_lt {cs rest : List Char} (h : gap? cs = some rest) :
    rest.length < cs.length := by
  cases cs with
  | nil => simp [gap?] at h
  | cons c cs =>
    simp only [gap?] at h
    split at h
    · simp only [Option.some.injEq] at h
      have hl := length_skipGap_le cs
      rw [← h]
      simp only [List.length_cons]
      omega
    · simp at h

theorem length_abstractWords?_lt {cs rest : List Char} (h : abstractWords? cs = some rest) :
    rest.length < cs.length := by
  simp only [abstractWords?, Option.bind_eq_some_iff] at h
  obtain ⟨a, ha, b, hb, hc⟩ := h
  have la := length_of_afterIgnoringCase? ha
  have lb := length_gap?_lt hb
  have lc := length_of_afterIgnoringCase? hc
  omega

theorem length_kind?_le {cs rest : List Char} {kind : ClassKind}
    (h : kind? cs = some (kind, rest)) : rest.length ≤ cs.length := by
  unfold kind? at h
  split at h
  · next r hr =>
    have hl := length_abstractWords?_lt hr
    simp_all
    omega
  · split at h
    · next r hr =>
      have hl := length_of_afterIgnoringCase? hr
      simp_all
      omega
    · split at h
      · next r hr =>
        have hl := length_of_afterIgnoringCase? hr
        simp_all
        omega
      · split at h
        · next r hr =>
          have hl := length_of_afterIgnoringCase? hr
          simp_all
          omega
        · simp at h

theorem length_optionalStereotype_le (cs : List Char) :
    (optionalStereotype cs).2.length ≤ cs.length := by
  unfold optionalStereotype
  split
  · next text rest h =>
    have hg := length_skipGap_le cs
    unfold stereotype? at h
    split at h
    · simp at h
    · next r hr =>
      have hl := length_of_after? hr
      split at h
      · simp at h
      · next t r' hs =>
        have hs' := length_of_splitAtFirst? hs
        split at h
        · simp at h
        · simp only [Option.some.injEq, Prod.mk.injEq] at h
          obtain ⟨_, rfl⟩ := h
          simp only
          omega
  · exact Nat.le_refl _

theorem length_body?_le {inComment : Bool} {cs rest : List Char} {members : List String}
    (h : body? inComment cs = some (members, rest)) : rest.length ≤ cs.length := by
  fun_induction body? inComment cs generalizing members rest with
  | case1 => simp at h
  | case2 inComment cs c r hs =>
    have hl := length_skipGap_le cs
    have ht := length_takeLine_le r
    simp_all
    omega
  | case3 =>
    rename_i inComment cs c r hs _ line below _ ih
    have hl := length_skipGap_le cs
    have ht : below.length ≤ (c :: r).length := length_takeLine_le (c :: r)
    have hi := ih h
    simp_all
    omega
  | case4 => simp at h
  | case5 =>
    rename_i inComment cs c r hs _ line below _ ms r' hb ih
    have hl := length_skipGap_le cs
    have ht : below.length ≤ (c :: r).length := length_takeLine_le (c :: r)
    have hi := ih hb
    simp_all
    omega

theorem length_members?_le {cs rest : List Char} {members : List String}
    (h : members? cs = some (members, rest)) : rest.length ≤ cs.length := by
  have hl := length_takeLine_le cs
  simp only [members?] at h
  split at h
  · simp_all
  · have hb := length_body?_le h
    omega

theorem length_class?_lt {cs rest : List Char} {c : ClassDecl}
    (h : class? cs = some (c, rest)) : rest.length < cs.length := by
  unfold class? at h
  split at h
  · simp at h
  · next kind r₁ hk =>
    have lk := length_kind?_le hk
    split at h
    · simp at h
    · next name r₂ hn =>
      obtain ⟨g, hg, hn⟩ := Option.bind_eq_some_iff.mp hn
      have lg := length_gap?_lt hg
      have ln := length_name?_lt hn
      have ls := length_optionalStereotype_le r₂
      dsimp only at h
      split at h
      · simp at h
      · next ms r₃ hm =>
        obtain ⟨b, hb, hm⟩ := Option.bind_eq_some_iff.mp hm
        have lb := length_of_after? hb
        have lm := length_members?_le hm
        have lg' := length_skipGap_le (optionalStereotype r₂).2
        simp only [Option.some.injEq, Prod.mk.injEq] at h
        obtain ⟨_, rfl⟩ := h
        omega

theorem length_arrow?_le {cs rest : List Char} {meaning : RelationKind × Bool}
    (h : arrow? cs = some (meaning, rest)) : rest.length ≤ cs.length := by
  obtain ⟨⟨word, m⟩, _, ha⟩ := List.exists_of_findSome?_eq_some h
  simp only [Option.map_eq_some_iff] at ha
  obtain ⟨r, hr, he⟩ := ha
  have hl := length_of_after? hr
  simp_all
  omega

theorem length_optionalLabel_le (cs : List Char) : (optionalLabel cs).2.length ≤ cs.length := by
  unfold optionalLabel
  split
  · next text rest h =>
    have hg := length_skipGap_le cs
    unfold label? at h
    split at h
    · simp at h
    · next r hr =>
      have hl := length_of_after? hr
      dsimp only at h
      split at h
      · simp at h
      · simp only [Option.some.injEq, Prod.mk.injEq] at h
        obtain ⟨_, rfl⟩ := h
        have hd := length_dropWhile_le (· != '\n') (skipGap r)
        have hs := length_skipGap_le r
        simp only
        omega
  · exact Nat.le_refl _

theorem length_skipLineEnd_le (cs : List Char) : (skipLineEnd cs).length ≤ cs.length := by
  unfold skipLineEnd
  cases h : lineEnd? cs with
  | none => simp
  | some rest =>
    have hl := length_lineEnd?_lt h
    simp only [Option.getD_some]
    omega

theorem length_relation?_lt {cs rest : List Char} {r : Relation}
    (h : relation? cs = some (r, rest)) : rest.length < cs.length := by
  unfold relation? at h
  split at h
  · simp at h
  · next left r₁ hn =>
    have ln := length_name?_lt hn
    have lg := length_skipGap_le r₁
    split at h
    · simp at h
    · next kind reversed r₂ ha =>
      have la := length_arrow?_le ha
      have lg₂ := length_skipGap_le r₂
      split at h
      · simp at h
      · next right r₃ hm =>
        have lm := length_name?_lt hm
        have ll := length_optionalLabel_le r₃
        have lg₃ := length_skipGap_le (optionalLabel r₃).2
        have le := length_skipLineEnd_le (skipGap (optionalLabel r₃).2)
        simp only [Option.some.injEq, Prod.mk.injEq] at h
        obtain ⟨_, rfl⟩ := h
        omega

theorem length_silent?_lt {cs rest : List Char} (h : silent? cs = some rest) :
    rest.length < cs.length := by
  unfold silent? at h
  split at h
  · next r hr =>
    simp only [Option.some.injEq] at h
    exact h ▸ length_lineEnd?_lt hr
  · split at h
    · next cs _ =>
      have hl := length_takeLine_le cs
      simp only [Option.some.injEq] at h
      rw [← h]
      simp only [List.length_cons]
      omega
    · next cs _ =>
      simp only [Option.map_eq_some_iff] at h
      obtain ⟨⟨b, r⟩, hs, rfl⟩ := h
      have hl := length_of_splitAtFirst? hs
      have ht := length_takeLine_le r
      simp only [List.length_cons]
      omega
    · next cs _ =>
      have hl := length_takeLine_le cs
      simp only [Option.some.injEq] at h
      rw [← h]
      simp only [List.length_cons]
      omega
    · simp at h

theorem length_item?_lt {cs rest : List Char} {item : Item}
    (h : item? cs = some (item, rest)) : rest.length < cs.length := by
  have hg := length_skipGap_le cs
  unfold item? itemAt? at h
  split at h
  · next r hr =>
    have hl := length_silent?_lt hr
    simp_all
    omega
  · split at h
    · next c r hr =>
      have hl := length_class?_lt hr
      simp_all
      omega
    · split at h
      · next r r' hr =>
        have hl := length_relation?_lt hr
        simp_all
        omega
      · simp at h

/-- All items that can be read one after another, and the text that is left. -/
def items (cs : List Char) : List Item × List Char :=
  match _ : item? cs with
  | none => ([], cs)
  | some (item, rest) => (item :: (items rest).1, (items rest).2)
  termination_by cs.length
  decreasing_by all_goals exact length_item?_lt ‹_›

def Item.declared? : Item → Option ClassDecl
  | .declared c => some c
  | _ => none

def Item.related? : Item → Option Relation
  | .related r => some r
  | _ => none

def ofItems (items : List Item) : ClassDiagram :=
  ⟨items.filterMap Item.declared?, items.filterMap Item.related?⟩

/-- The first line of what could not be read, at most forty characters of it. -/
def complaint (rest : List Char) : String :=
  let line := trim ((trimLeft rest).takeWhile (· != '\n'))
  if line.length ≤ 40 then String.ofList line else String.ofList (line.take 40) ++ "..."

def ofText (text : String) : Except Error ClassDiagram :=
  let (items, rest) := items text.toList
  if (trim rest).isEmpty then .ok (ofItems items) else .error (.unexpected (complaint rest))

end DotDiagram.ClassDiagram
