import DotDiagram.Proofs.ClassDiagram.Header
import Mathlib.Data.List.DropRight
import Mathlib.Logic.Function.Iterate

/-! Reading goes on until it ends. The reader is taken apart into the turns of its two loops, over
the items of a text and over the lines of a body. Every turn that does not fail takes something
from the front of the text, so no item is read from nothing, and the loops together make no more
than one turn for each character and one to end. -/

namespace DotDiagram.ClassDiagram

variable {cs rest : List Char}

/-- Something is taken from the front of the text, and the rest is left. -/
def Consumed (cs rest : List Char) : Prop := ∃ taken, taken ≠ [] ∧ cs = taken ++ rest

theorem Consumed.length_lt (h : Consumed cs rest) : rest.length < cs.length := by
  obtain ⟨taken, hne, rfl⟩ := h
  have htaken := List.length_pos_iff.mpr hne
  rw [List.length_append]
  omega

theorem consumed_of_suffix (h : rest <:+ cs) (hl : rest.length < cs.length) : Consumed cs rest := by
  obtain ⟨taken, rfl⟩ := h
  refine ⟨taken, ?_, rfl⟩
  rintro rfl
  simp at hl

/-- What one turn of the loop over the lines of a body comes to. -/
inductive BodyTurn where
  | unclosed
  | closed (rest : List Char)
  | line (member : Option String) (inComment : Bool) (below : List Char)

def BodyTurn.rest? : BodyTurn → Option (List Char)
  | .unclosed => none
  | .closed rest => some rest
  | .line _ _ below => some below

def bodyTurn (inComment : Bool) (cs : List Char) : BodyTurn :=
  match skipGap cs with
  | [] => .unclosed
  | c :: line =>
    if !inComment && c == '}' then .closed (takeLine line).2
    else
      let text := trim (takeLine (c :: line)).1
      let below := (takeLine (c :: line)).2
      if inComment || opensComment text then .line none (!closesComment text) below
      else .line (member? text) false below

/-- What the loop reads, if `loop` is what it reads from its next turn on. -/
def BodyTurn.result (loop : Bool → List Char → Option (List String × List Char)) :
    BodyTurn → Option (List String × List Char)
  | .unclosed => none
  | .closed rest => some ([], rest)
  | .line member inComment below =>
    (loop inComment below).map fun read => (member.toList ++ read.1, read.2)

theorem body?_eq_result (inComment : Bool) (cs : List Char) :
    body? inComment cs = (bodyTurn inComment cs).result body? := by
  unfold bodyTurn
  cases hs : skipGap cs with
  | nil => exact body?_of_skipGap_nil inComment hs
  | cons c line =>
    rw [body?_of_skipGap hs]
    dsimp only
    split
    · rfl
    · split
      · simp [BodyTurn.result]
      · rfl

/-- Only where nothing but blanks is left, the body cannot be read on. -/
theorem rest?_bodyTurn_eq_none_iff {inComment : Bool} :
    (bodyTurn inComment cs).rest? = none ↔ ∀ c ∈ cs, isGap c = true := by
  rw [← List.dropWhile_eq_nil_iff, ← skipGap, bodyTurn]
  cases skipGap cs with
  | nil => simp [BodyTurn.rest?]
  | cons c line =>
    dsimp only
    split
    · simp [BodyTurn.rest?]
    · split <;> simp [BodyTurn.rest?]

theorem consumed_line {c : Char} {line : List Char} (h : skipGap cs = c :: line) :
    Consumed cs (takeLine (c :: line)).2 ∧ Consumed cs (takeLine line).2 := by
  have hskip : c :: line <:+ cs := h ▸ suffix_skipGap cs
  have hlength := hskip.length_le
  have hwhole := length_takeLine_lt (List.cons_ne_nil c line)
  have hpart := length_takeLine_le line
  rw [List.length_cons] at hlength hwhole
  refine ⟨consumed_of_suffix ((suffix_takeLine _).trans hskip) (by omega), ?_⟩
  have hline : line <:+ cs := (List.suffix_cons c line).trans hskip
  exact consumed_of_suffix ((suffix_takeLine line).trans hline) (by omega)

/-- Blank lines, comments and a last line without its end are consumed like any other line. -/
theorem consumed_bodyTurn {inComment : Bool} (h : (bodyTurn inComment cs).rest? = some rest) :
    Consumed cs rest := by
  unfold bodyTurn at h
  split at h
  · cases h
  · next c line hs =>
    obtain ⟨hwhole, hpart⟩ := consumed_line hs
    dsimp only at h
    split at h
    · cases h
      exact hpart
    · split at h
      · cases h
        exact hwhole
      · cases h
        exact hwhole

theorem consumed_item? {item : Item} (h : item? cs = some (item, rest)) : Consumed cs rest :=
  consumed_of_suffix (suffix_of_item? h) (length_item?_lt h)

theorem length_header?_lt {heading : Heading} (h : header? cs = some (heading, rest)) :
    rest.length < cs.length := by
  obtain ⟨header, rfl⟩ := exists_of_header? h
  obtain ⟨c, chars, hchars, -⟩ := header.exists_cons
  rw [hchars, List.length_append, List.length_cons]
  omega

/-- The body of a class that is closed on the line of its opening brace. -/
def oneLineBody? (cs : List Char) : Option (List String × List Char) :=
  let header := trim (takeLine cs).1
  if header.getLast? == some '}' then
    some ((member? (trim header.dropLast)).toList, (takeLine cs).2)
  else none

theorem members?_eq_or (cs : List Char) :
    members? cs = (oneLineBody? cs).or (body? false (takeLine cs).2) := by
  simp only [members?, oneLineBody?]
  split <;> rfl

theorem item?_skipGap (cs : List Char) : item? (skipGap cs) = item? cs := by
  rw [item?, item?, skipGap, skipGap, List.dropWhile_idempotent]

/-- What begins with a header is a class or cannot be read. -/
theorem item?_of_header? {heading : Heading} (h : header? (skipGap cs) = some (heading, rest)) :
    item? cs = (members? rest).map fun read => (.declared (heading.decl read.1), read.2) := by
  obtain ⟨header, heq⟩ := exists_of_header? h
  have hclass : class? (skipGap cs) =
      (members? rest).map fun read => (heading.decl read.1, read.2) := by
    rw [class?_eq_bind, h]
    rfl
  rw [← item?_skipGap, heq, header.item?_append, ← heq, hclass, Option.map_map]
  rfl

theorem item?_of_no_header (hs : silent? (skipGap cs) = none) (hh : header? (skipGap cs) = none) :
    item? cs = (relation? (skipGap cs)).map fun read => (.related read.1, read.2) := by
  have hclass : class? (skipGap cs) = none := by
    rw [class?_eq_bind, hh]
    rfl
  rw [item?, itemAt?, hs, hclass]
  cases relation? (skipGap cs) <;> rfl

/-- Where the reader stands: between two items, before a line of the body of a class, at the end of
what can be read, or at fault since it has taken an item for read and nothing from the text. In a
body it knows where the class began. -/
inductive Reader where
  | between (read : List Item) (cs : List Char)
  | inBody (read : List Item) (start : List Char) (heading : Heading) (members : List String)
      (inComment : Bool) (cs : List Char)
  | ended (read : List Item) (cs : List Char)
  | atFault

namespace Reader

/-- An item may not be read from nothing. -/
def accept (read : List Item) (start : List Char) (item : Item) (rest : List Char) : Reader :=
  if rest.length = start.length then .atFault else .between (read ++ [item]) rest

/-- The last thing tried is a relation, and then reading ends where the item should have begun. -/
def acceptRelation (read : List Item) (start : List Char) : Reader :=
  match relation? (skipGap start) with
  | some (r, rest) => accept read start (.related r) rest
  | none => .ended read start

/-- One turn of the loop that the reader is in. -/
def step : Reader → Reader
  | .between read cs =>
    match silent? (skipGap cs) with
    | some rest => accept read cs .silent rest
    | none =>
      match header? (skipGap cs) with
      | none => acceptRelation read cs
      | some (heading, below) =>
        match oneLineBody? below with
        | some (members, rest) => accept read cs (.declared (heading.decl members)) rest
        | none => .inBody read cs heading [] false (takeLine below).2
  | .inBody read start heading members inComment cs =>
    match bodyTurn inComment cs with
    | .unclosed => acceptRelation read start
    | .closed rest => accept read start (.declared (heading.decl members)) rest
    | .line member inComment below =>
      .inBody read start heading (members ++ member.toList) inComment below
  | .ended read cs => .ended read cs
  | .atFault => .atFault

/-- The turns that are left to the reader at most. -/
def turns : Reader → Nat
  | .between _ cs | .inBody _ _ _ _ _ cs => cs.length + 1
  | .ended _ _ | .atFault => 0

/-- What is said of the text once reading has ended. -/
def verdict? : Reader → Option (Except Error ClassDiagram)
  | .ended read cs => some <|
    if trim cs = [] then .ok (ofItems read) else .error (.unexpected (complaint cs))
  | _ => none

/-- The reader is on the way to all the items of the text. In a body, the item to be read is the
class with the members so far and those below. -/
def Follows (text : List Char) : Reader → Prop
  | .between read cs => items text = (read ++ (items cs).1, (items cs).2)
  | .inBody read start heading members inComment cs =>
    items text = (read ++ (items start).1, (items start).2) ∧ cs.length < start.length ∧
      item? start = (body? inComment cs).map fun body =>
        (.declared (heading.decl (members ++ body.1)), body.2)
  | .ended read cs => items text = (read, cs)
  | .atFault => False

variable {text start : List Char} {read : List Item} {s : Reader}

theorem Follows.item {item : Item} (h : Follows text (.between read start))
    (hitem : item? start = some (item, rest)) : Follows text (.between (read ++ [item]) rest) := by
  rw [Follows, items_of_item? hitem] at h
  rw [Follows, h, List.append_assoc, List.singleton_append]

theorem Follows.last (h : Follows text (.between read start)) (hitem : item? start = none) :
    Follows text (.ended read start) := by
  rw [Follows, items_of_none hitem, List.append_nil] at h
  exact h

/-- What the loop over the items does at an item, or where there is none. -/
def settle (read : List Item) (start : List Char) : Reader :=
  match item? start with
  | some (item, rest) => .between (read ++ [item]) rest
  | none => .ended read start

theorem Follows.settle (h : Follows text (.between read start)) :
    Follows text (settle read start) := by
  unfold Reader.settle
  cases hitem : item? start with
  | none => exact h.last hitem
  | some found => exact h.item hitem

theorem turns_settle_le (read : List Item) (start : List Char) :
    (settle read start).turns ≤ start.length := by
  unfold settle
  cases hitem : item? start with
  | none => exact Nat.zero_le _
  | some found => exact (consumed_item? hitem).length_lt

theorem accept_of_item? {item : Item} (h : item? start = some (item, rest)) :
    accept read start item rest = .between (read ++ [item]) rest :=
  if_neg (Nat.ne_of_lt (consumed_item? h).length_lt)

theorem accept_eq_settle {item : Item} (h : item? start = some (item, rest)) :
    accept read start item rest = settle read start := by
  rw [accept_of_item? h, settle, h]

theorem acceptRelation_eq_settle
    (h : item? start = (relation? (skipGap start)).map fun read => (.related read.1, read.2)) :
    acceptRelation read start = settle read start := by
  unfold acceptRelation
  cases hr : relation? (skipGap start) with
  | some found =>
    rw [hr, Option.map_some] at h
    exact accept_eq_settle h
  | none =>
    rw [hr, Option.map_none] at h
    rw [settle, h]

theorem acceptRelation_of_none (h : item? start = none) :
    acceptRelation read start = .ended read start := by
  have hrelation : relation? (skipGap start) = none := by
    cases hr : relation? (skipGap start) with
    | none => rfl
    | some found =>
      rw [item?, itemAt?_of_relation? hr] at h
      cases h
  rw [acceptRelation, hrelation]

theorem step_between (read : List Item) (cs : List Char) :
    step (.between read cs) = settle read cs ∨
      ∃ heading below, header? (skipGap cs) = some (heading, below) ∧ oneLineBody? below = none ∧
        step (.between read cs) = .inBody read cs heading [] false (takeLine below).2 := by
  cases hs : silent? (skipGap cs) with
  | some rest =>
    left
    have hitem : item? cs = some (.silent, rest) := itemAt?_of_silent? hs
    simp only [step, hs, accept_eq_settle hitem]
  | none =>
    cases hh : header? (skipGap cs) with
    | none =>
      left
      simp only [step, hs, hh, acceptRelation_eq_settle (item?_of_no_header hs hh)]
    | some found =>
      obtain ⟨heading, below⟩ := found
      cases hb : oneLineBody? below with
      | none =>
        right
        refine ⟨heading, below, rfl, hb, ?_⟩
        simp only [step, hs, hh, hb]
      | some body =>
        left
        have hitem := item?_of_header? hh
        rw [members?_eq_or, hb] at hitem
        simp only [step, hs, hh, hb]
        exact accept_eq_settle hitem

theorem Follows.step_between {read : List Item} {cs : List Char}
    (h : Follows text (.between read cs)) :
    Follows text (step (.between read cs)) ∧ (step (.between read cs)).turns ≤ cs.length := by
  rcases Reader.step_between read cs with heq | ⟨heading, below, hh, hb, heq⟩
  · rw [heq]
    exact ⟨h.settle, turns_settle_le read cs⟩
  · have hitem := item?_of_header? hh
    rw [members?_eq_or, hb, Option.none_or] at hitem
    have hheader := length_header?_lt hh
    have hskip := length_skipGap_le cs
    have hline := length_takeLine_le below
    have hlength : (takeLine below).2.length < cs.length := by omega
    rw [heq]
    exact ⟨⟨h, hlength, hitem⟩, hlength⟩

theorem Follows.step_inBody {heading : Heading} {members : List String} {inComment : Bool}
    (h : Follows text (.inBody read start heading members inComment cs)) :
    Follows text (step (.inBody read start heading members inComment cs)) ∧
      (step (.inBody read start heading members inComment cs)).turns ≤ cs.length := by
  obtain ⟨hitems, hlength, hitem⟩ := h
  have hstart : Follows text (.between read start) := hitems
  rw [body?_eq_result] at hitem
  cases hturn : bodyTurn inComment cs with
  | unclosed =>
    -- the reader goes back to where the class began, but only to end there
    rw [hturn] at hitem
    have hstep : step (.inBody read start heading members inComment cs) = .ended read start := by
      simp only [step, hturn]
      exact acceptRelation_of_none hitem
    rw [hstep]
    exact ⟨hstart.last hitem, Nat.zero_le _⟩
  | closed rest =>
    have hrest : Consumed cs rest := consumed_bodyTurn (by rw [hturn]; rfl)
    rw [hturn, BodyTurn.result, Option.map_some, List.append_nil] at hitem
    have hstep : step (.inBody read start heading members inComment cs) =
        .between (read ++ [.declared (heading.decl members)]) rest := by
      simp only [step, hturn]
      exact accept_of_item? hitem
    rw [hstep]
    exact ⟨hstart.item hitem, hrest.length_lt⟩
  | line member inComment' below =>
    have hbelow : Consumed cs below := consumed_bodyTurn (by rw [hturn]; rfl)
    have hstep : step (.inBody read start heading members inComment cs) =
        .inBody read start heading (members ++ member.toList) inComment' below := by
      simp only [step, hturn]
    rw [hturn, BodyTurn.result, Option.map_map] at hitem
    rw [hstep]
    refine ⟨⟨hitems, hbelow.length_lt.trans hlength, ?_⟩, hbelow.length_lt⟩
    simp only [hitem, Function.comp_def, List.append_assoc]

/-- Every turn keeps the reader on its way and leaves it fewer turns. -/
theorem Follows.step (h : Follows text s) :
    Follows text s.step ∧ s.step.turns ≤ s.turns - 1 := by
  cases s with
  | between read cs => exact h.step_between
  | inBody read start heading members inComment cs => exact h.step_inBody
  | ended read cs => exact ⟨h, Nat.zero_le _⟩
  | atFault => cases h

theorem Follows.iterate (h : Follows text s) (n : Nat) :
    Follows text (Reader.step^[n] s) ∧ (Reader.step^[n] s).turns ≤ s.turns - n := by
  induction n with
  | zero => exact ⟨h, Nat.le_refl _⟩
  | succ n ih =>
    obtain ⟨hfollows, hturns⟩ := ih
    obtain ⟨hnext, hfewer⟩ := hfollows.step
    rw [Function.iterate_succ_apply']
    exact ⟨hnext, by omega⟩

theorem follows_start (text : List Char) : Follows text (.between [] text) := rfl

theorem Follows.ended (h : Follows text s) (ht : s.turns = 0) :
    s = .ended (items text).1 (items text).2 := by
  cases s with
  | between read cs => cases ht
  | inBody read start heading members inComment cs => cases ht
  | ended read cs =>
    rw [Follows] at h
    rw [h]
  | atFault => cases h

end Reader

/-- How reading gets on with a text: by items, by the lines of a body, and turn by turn. -/
structure Progress (cs : List Char) : Prop where
  item : ∀ item rest, item? cs = some (item, rest) → Consumed cs rest
  body : ∀ inComment, body? inComment cs = (bodyTurn inComment cs).result body?
  line : ∀ inComment rest, (bodyTurn inComment cs).rest? = some rest → Consumed cs rest
  unclosed : ∀ inComment, (bodyTurn inComment cs).rest? = none ↔ ∀ c ∈ cs, isGap c = true
  sound : ∀ n, Reader.step^[n] (.between [] cs) ≠ .atFault
  ends : ∀ n, cs.length < n →
    Reader.step^[n] (.between [] cs) = .ended (items cs).1 (items cs).2 ∧
      (Reader.step^[n] (.between [] cs)).verdict? = some (ofText (String.ofList cs))

/-- Every item and every line of a body takes something from the text, whatever the text is, and
reading ends with the verdict on it, also where a body or a comment is not closed. -/
theorem reading_progresses (cs : List Char) : Progress cs where
  item _ _ := consumed_item?
  body inComment := body?_eq_result inComment cs
  line _ _ := consumed_bodyTurn
  unclosed _ := rest?_bodyTurn_eq_none_iff
  sound n hfault := by
    have hfollows := ((Reader.follows_start cs).iterate n).1
    rw [hfault] at hfollows
    exact hfollows
  ends n hn := by
    obtain ⟨hfollows, hturns⟩ := (Reader.follows_start cs).iterate n
    have hnone : (Reader.step^[n] (.between [] cs)).turns = 0 := by
      rw [Reader.turns] at hturns
      omega
    have hended := hfollows.ended hnone
    refine ⟨hended, ?_⟩
    rw [hended, ofText_ofList]
    rfl

/-- Neither the class nor the comment in its body is closed. The body has a blank line, carriage
returns without a line feed, and a last line without its end. -/
def leftOpen : List Char := "class A \x7b\n\n\rx\n/' y\r".toList

theorem leftOpen_progresses :
    Reader.step^[4] (.between [] leftOpen) =
        .inBody [] leftOpen ⟨.concrete, "A", none⟩ ["x"] true [] ∧
      Reader.step^[5] (.between [] leftOpen) = .ended [] leftOpen ∧
      (∀ n, Reader.step^[n] (.between [] leftOpen) ≠ .atFault) ∧ items leftOpen = ([], leftOpen) ∧
      ofText (String.ofList leftOpen) = .error (.unexpected "class A \x7b") := by
  have hprogress := reading_progresses leftOpen
  have hended : Reader.step^[20] (.between [] leftOpen) = .ended [] leftOpen := rfl
  obtain ⟨hitems, hverdict⟩ := hprogress.ends 20 (by decide)
  rw [hended] at hitems hverdict
  simp only [Reader.ended.injEq] at hitems
  refine ⟨rfl, rfl, hprogress.sound, Prod.ext hitems.1.symm hitems.2.symm, ?_⟩
  exact (Option.some.inj hverdict).symm

end DotDiagram.ClassDiagram
