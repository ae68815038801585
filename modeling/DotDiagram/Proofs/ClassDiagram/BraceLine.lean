import DotDiagram.Proofs.ClassDiagram.Body
import DotDiagram.Proofs.ClassDiagram.Joining

/-! The line of the opening brace. A text behind the brace is lost, though on the next line it
would be read; so the two agree just when it says nothing. With the closing brace behind it
the text is read as a member, also if on a line of its own it would be a block comment. -/

namespace DotDiagram.ClassDiagram

variable {line : List Char}

/-- The line has no member, and all comments that it opens end with it. -/
def Silent (line : List Char) : Prop :=
  trim line = [] ∨ (trim line).head? = some '\'' ∨
    (opensComment (trim line) = true ∧ closesComment (trim line) = true)

theorem member?_eq_none_iff : member? line = none ↔ line = [] ∨ line.head? = some '\'' := by
  unfold member?
  split
  · simp
  · simp
  · next hnil hquote =>
    refine ⟨nofun, fun h => ?_⟩
    rcases h with rfl | hhead
    · exact absurd rfl hnil
    · obtain ⟨rest, rfl⟩ := List.head?_eq_some_iff.mp hhead
      exact absurd rfl (hquote rest)

theorem member?_of_opensComment (h : opensComment line = true) :
    ∃ member, member? line = some member := by
  obtain ⟨rest, rfl⟩ := List.isPrefixOf_iff_prefix.mp h
  exact ⟨_, rfl⟩

theorem Header.decl_ne (h : Header) (member : String) : h.decl [member] ≠ h.decl [] := by
  intro heq
  have hlength := congrArg (fun c => c.attributes.length + c.methods.length) heq
  cases hm : isMethod member <;> simp [decl, ofMembers, hm] at hlength

theorem diagram?_brace (h : Header) (members : List String)
    {text : List Char} (ht : members? text = some (members, [])) :
    diagram? (h.chars ++ text) = some ⟨[h.decl members], []⟩ := by
  rw [h.diagram?_append, ht, Option.bind_some, diagram?_nil]
  rfl

section

variable (h : Header) {m : List Char} (hfeed : '\n' ∉ m) (hbrace : '}' ∉ m)
include hfeed hbrace

theorem members?_behind (rest : List Char) : members? (m ++ '\n' :: rest) = body? false rest :=
  members?_of_open hfeed (fun hlast => hbrace (mem_of_mem_trim (List.mem_of_getLast? hlast))) rest

theorem members?_below (rest : List Char) :
    members? ('\n' :: (m ++ '\n' :: rest)) =
      if opensComment (trim m) then body? (!closesComment (trim m)) rest
      else (body? false rest).map fun read => ((member? (trim m)).toList ++ read.1, read.2) := by
  have hopen : (skipGap m).head? ≠ some '}' :=
    fun hhead => hbrace ((suffix_skipGap m).subset (List.mem_of_mem_head? hhead))
  rw [members?_feed, body?_line false hfeed (fun _ => hopen)]
  rfl

theorem members?_below_of_silent (hs : Silent m) (rest : List Char) :
    members? ('\n' :: (m ++ '\n' :: rest)) = body? false rest := by
  rw [members?_below hfeed hbrace]
  split
  · next hopens =>
    rcases hs with hnil | hquote | ⟨-, hcloses⟩
    · rw [hnil] at hopens
      cases hopens
    · obtain ⟨member, hmember⟩ := member?_of_opensComment hopens
      rw [member?_eq_none_iff.mpr (.inr hquote)] at hmember
      cases hmember
    · rw [hcloses]
      rfl
  · have hnone : member? (trim m) = none := by
      rcases hs with hnil | hquote | ⟨hopens, -⟩
      · exact member?_eq_none_iff.mpr (.inl hnil)
      · exact member?_eq_none_iff.mpr (.inr hquote)
      · contradiction
    rw [hnone]
    cases body? false rest <;> rfl

/-- What is read of a body of one line. -/
theorem members?_alone :
    (Silent m ∧ members? ('\n' :: (m ++ ['\n', '}'])) = some ([], [])) ∨
      (∃ member, member? (trim m) = some member ∧
        members? ('\n' :: (m ++ ['\n', '}'])) = some ([member], [])) ∨
      members? ('\n' :: (m ++ ['\n', '}'])) = none := by
  have hread := members?_below hfeed hbrace ['}']
  rw [body?_brace] at hread
  split at hread
  · next hopens =>
    cases hcloses : closesComment (trim m) with
    | true =>
      rw [hcloses, Bool.not_true, body?_brace] at hread
      exact .inl ⟨.inr (.inr ⟨hopens, hcloses⟩), hread⟩
    | false =>
      rw [hcloses, Bool.not_false, body?_unclosed] at hread
      exact .inr (.inr hread)
  · cases hmember : member? (trim m) with
    | none =>
      rw [hmember] at hread
      rcases member?_eq_none_iff.mp hmember with hnil | hquote
      · exact .inl ⟨.inl hnil, hread⟩
      · exact .inl ⟨.inr (.inl hquote), hread⟩
    | some member =>
      rw [hmember] at hread
      exact .inr (.inl ⟨member, rfl, hread⟩)

theorem diagram?_behind_eq_iff :
    (∀ rest, diagram? (h.chars ++ (m ++ '\n' :: rest)) =
      diagram? (h.chars ++ '\n' :: (m ++ '\n' :: rest))) ↔ Silent m := by
  constructor
  · intro hsame
    have hbehind : members? (m ++ ['\n', '}']) = some ([], []) :=
      (members?_behind hfeed hbrace ['}']).trans (body?_brace [])
    have hlast := hsame ['}']
    rw [diagram?_brace h [] hbehind] at hlast
    rcases members?_alone hfeed hbrace with ⟨hsilent, -⟩ | ⟨member, -, halone⟩ | halone
    · exact hsilent
    · rw [diagram?_brace h [member] halone] at hlast
      simp only [Option.some.injEq, ClassDiagram.mk.injEq, List.cons.injEq, and_true] at hlast
      exact absurd hlast.symm (h.decl_ne member)
    · rw [h.diagram?_append, halone] at hlast
      cases hlast
  · intro hsilent rest
    rw [h.diagram?_append, h.diagram?_append, members?_behind hfeed hbrace,
      members?_below_of_silent hfeed hbrace hsilent]

theorem diagram?_closed_eq_iff :
    (∀ rest, (∀ c ∈ (takeLine rest).1, isBlank c = true) →
      diagram? (h.chars ++ (m ++ '}' :: rest)) =
        diagram? (h.chars ++ '\n' :: (m ++ '\n' :: '}' :: rest))) ↔
      opensComment (trim m) = false := by
  constructor
  · intro hsame
    apply Bool.eq_false_iff.mpr
    intro hopens
    obtain ⟨member, hmember⟩ := member?_of_opensComment hopens
    have hclosed : members? (m ++ ['}']) = some ((member? (trim m)).toList, []) :=
      members?_of_closed hfeed nofun
    have hlast := hsame [] nofun
    rw [hmember] at hclosed
    rw [diagram?_brace h [member] hclosed] at hlast
    have hread := members?_below hfeed hbrace ['}']
    rw [if_pos hopens] at hread
    cases hcloses : closesComment (trim m) with
    | true =>
      rw [hcloses, Bool.not_true, body?_brace] at hread
      rw [diagram?_brace h [] hread] at hlast
      simp only [Option.some.injEq, ClassDiagram.mk.injEq, List.cons.injEq, and_true] at hlast
      exact absurd hlast (h.decl_ne member)
    | false =>
      rw [hcloses, Bool.not_false, body?_unclosed] at hread
      rw [h.diagram?_append, hread] at hlast
      cases hlast
  · intro hopens rest hblank
    rw [h.diagram?_append, h.diagram?_append, members?_of_closed hfeed hblank,
      members?_below hfeed hbrace, hopens, body?_brace]
    simp

end

/-- What becomes of a text behind the opening brace, compared with the text on the next line. -/
structure BraceLine (h : Header) (m : List Char) : Prop where
  lost : ∀ rest, SaySame (h.chars ++ (m ++ '\n' :: rest)) (h.chars ++ '\n' :: rest)
  alike : (∀ rest, SaySame (h.chars ++ (m ++ '\n' :: rest))
    (h.chars ++ '\n' :: (m ++ '\n' :: rest))) ↔ Silent m
  closed : ∀ rest, (∀ c ∈ (takeLine rest).1, isBlank c = true) →
    class? (h.chars ++ (m ++ '}' :: rest)) =
      some (h.decl (member? (trim m)).toList, (takeLine rest).2)
  closedAlike : (∀ rest, (∀ c ∈ (takeLine rest).1, isBlank c = true) →
    SaySame (h.chars ++ (m ++ '}' :: rest)) (h.chars ++ '\n' :: (m ++ '\n' :: '}' :: rest))) ↔
      opensComment (trim m) = false
  trailed : ∀ tail, '\n' ∉ tail → trimRight tail ≠ [] → (trimRight tail).getLast? ≠ some '}' →
    ∀ rest, SaySame (h.chars ++ (m ++ '}' :: (tail ++ '\n' :: rest))) (h.chars ++ '\n' :: rest)

/-- It is so behind every header, and with one every class begins that is read (`exists_header`). -/
theorem braceLine_of_header (h : Header) {m : List Char} (hfeed : '\n' ∉ m) (hbrace : '}' ∉ m) :
    BraceLine h m where
  lost rest := saySame_iff.mpr <| by
    rw [h.diagram?_append, h.diagram?_append, members?_behind hfeed hbrace, members?_feed]
  alike := by
    simp only [saySame_iff]
    exact diagram?_behind_eq_iff h hfeed hbrace
  closed rest hblank := by
    rw [h.class?_append, members?_of_closed hfeed hblank]
    rfl
  closedAlike := by
    simp only [saySame_iff]
    exact diagram?_closed_eq_iff h hfeed hbrace
  trailed tail htail hshown hlast rest := saySame_iff.mpr <| by
    rw [h.diagram?_append, h.diagram?_append, members?_trailed hfeed htail hshown hlast,
      members?_feed]

theorem braceLine_plain :
    ('\n' ∉ [' ', 'x', ' '] ∧ '}' ∉ [' ', 'x', ' ']) ∧ BraceLine .plain [' ', 'x', ' '] ∧
      class? "class A { x }".toList = some (⟨.concrete, "A", none, ["x"], []⟩, []) := by
  have hbrace : BraceLine .plain [' ', 'x', ' '] :=
    braceLine_of_header .plain (by decide) (by decide)
  exact ⟨by decide, hbrace, hbrace.closed [] nofun⟩

/-- The member `x` is read from the second line, but not from the first. -/
theorem member_lost_behind_brace :
    diagram? "class A \x7b x\n\x7d".toList = some ⟨[⟨.concrete, "A", none, [], []⟩], []⟩ ∧
      diagram? "class A \x7b\n x\n\x7d".toList = some ⟨[⟨.concrete, "A", none, ["x"], []⟩], []⟩ := by
  have hfeed : '\n' ∉ [' ', 'x'] := by decide
  have hbrace : '}' ∉ [' ', 'x'] := by decide
  have hbehind := (members?_behind hfeed hbrace ['}']).trans (body?_brace [])
  have hbelow := members?_below hfeed hbrace ['}']
  rw [body?_brace] at hbelow
  exact ⟨diagram?_brace .plain [] hbehind, diagram?_brace .plain ["x"] hbelow⟩

end DotDiagram.ClassDiagram
