import DotDiagram.Proofs.ClassDiagram.Body
import DotDiagram.Proofs.ClassDiagram.Header
import DotDiagram.Proofs.ClassDiagram.Joining
import DotDiagram.Proofs.Text.Trim

/-! What is read is well formed. Names are made of letters, digits and underscores, and texts
neither begin nor end with white space. Each reader gives only what has its own form, so the
items of a text have theirs, and the diagram has them from its items. -/

namespace DotDiagram

/-- The text neither begins nor ends with white space. -/
structure Trimmed (text : String) : Prop where
  head : ∀ c ∈ text.toList.head?, isBlank c = false
  last : ∀ c ∈ text.toList.getLast?, isBlank c = false

namespace ClassDiagram

structure IsName (name : String) : Prop where
  nonempty : name ≠ ""
  named : ∀ c ∈ name.toList, isLetterOrDigit c = true ∨ c = '_'

/-- The text stands on one line, and there is something of it. -/
structure IsLine (text : String) : Prop where
  trimmed : Trimmed text
  nonempty : text ≠ ""
  oneLine : '\n' ∉ text.toList

/-- A line in a class that is no comment. -/
structure IsMember (member : String) : Prop extends IsLine member where
  said : member.toList.head? ≠ some '\''

structure IsStereotype (text : String) : Prop where
  trimmed : Trimmed text
  free : ¬ ['>', '>'] <:+: text.toList

end ClassDiagram

structure ClassDecl.WellFormed (c : ClassDecl) : Prop where
  name : ClassDiagram.IsName c.name
  stereotype : ∀ text ∈ c.stereotype, ClassDiagram.IsStereotype text
  attributes : ∀ m ∈ c.attributes,
    ClassDiagram.IsMember m ∧ ¬ ('(' ∈ m.toList ∧ ')' ∈ m.toList)
  methods : ∀ m ∈ c.methods, ClassDiagram.IsMember m ∧ '(' ∈ m.toList ∧ ')' ∈ m.toList

structure Relation.WellFormed (r : Relation) : Prop where
  source : ClassDiagram.IsName r.source
  target : ClassDiagram.IsName r.target
  label : ∀ text ∈ r.label, ClassDiagram.IsLine text

structure ClassDiagram.WellFormed (d : ClassDiagram) : Prop where
  classes : ∀ c ∈ d.classes, c.WellFormed
  relations : ∀ r ∈ d.relations, r.WellFormed

namespace ClassDiagram

variable {cs line rest : List Char}

theorem trimmed_trim (cs : List Char) : Trimmed (String.ofList (trim cs)) where
  head := by
    rw [String.toList_ofList]
    exact head?_trim cs
  last := by
    rw [String.toList_ofList]
    exact getLast?_trim cs

theorem ofList_ne_empty (h : cs ≠ []) : String.ofList cs ≠ "" := by
  intro heq
  apply h
  rw [← String.toList_ofList (l := cs), heq]
  rfl

/-- A trimmed part of a line, if it is not empty. -/
theorem isLine_trim (hne : trim cs ≠ []) (hfeed : '\n' ∉ cs) :
    IsLine (String.ofList (trim cs)) where
  trimmed := trimmed_trim cs
  nonempty := ofList_ne_empty hne
  oneLine := by
    rw [String.toList_ofList]
    exact fun hm => hfeed (mem_of_mem_trim hm)

theorem not_mem_takeLine (cs : List Char) : '\n' ∉ (takeLine cs).1 := by
  intro hm
  simpa using List.mem_takeWhile_imp hm

theorem isName_of_name? {name : String} (h : name? cs = some (name, rest)) : IsName name := by
  rw [name?] at h
  split at h
  · cases h
  · next hne =>
    cases h
    refine ⟨ofList_ne_empty fun heq => hne (List.isEmpty_iff.mpr heq), ?_⟩
    intro c hc
    rw [String.toList_ofList] at hc
    have hnamed : isNameChar c = true := List.mem_takeWhile_imp hc
    simpa [isNameChar] using hnamed

theorem isStereotype_of_stereotype? {text : String} (h : stereotype? cs = some (text, rest)) :
    IsStereotype text := by
  obtain ⟨inner, shown, -, hclose, -, rfl⟩ := pieces_of_stereotype? h
  have hmarked : splitAtFirst? ['>', '>'] inner = some (shown, rest) := hclose
  obtain ⟨-, hfree⟩ := eq_of_splitAtFirst? hmarked
  refine ⟨trimmed_trim shown, ?_⟩
  rw [String.toList_ofList]
  exact fun hi => hfree ((hi.trans (infix_trim shown)).trans (List.prefix_append shown _).isInfix)

theorem isStereotype_of_mem {text : String} (h : text ∈ (optionalStereotype cs).1) :
    IsStereotype text := by
  unfold optionalStereotype at h
  split at h
  · next hread =>
    cases h
    exact isStereotype_of_stereotype? hread
  · cases h

theorem isMember_of_member? {member : String} (hfeed : '\n' ∉ line)
    (h : member? (trim line) = some member) : IsMember member := by
  unfold member? at h
  split at h
  · cases h
  · cases h
  · next hne hquote =>
    cases h
    refine ⟨isLine_trim hne hfeed, fun hhead => ?_⟩
    rw [String.toList_ofList] at hhead
    obtain ⟨text, htext⟩ := List.head?_eq_some_iff.mp hhead
    exact hquote text htext

theorem isMember_of_mem_toList {member : String} (hfeed : '\n' ∉ line)
    (h : member ∈ (member? (trim line)).toList) : IsMember member :=
  isMember_of_member? hfeed (Option.mem_toList.mp h)

theorem isMember_of_body? {inComment : Bool} {members : List String}
    (h : body? inComment cs = some (members, rest)) : ∀ m ∈ members, IsMember m := by
  fun_induction body? inComment cs generalizing members rest with
  | case1 => cases h
  | case2 =>
    cases h
    exact fun m hm => absurd hm List.not_mem_nil
  | case3 inComment cs c line hs _ text left =>
    rename_i ih
    exact ih h
  | case4 => cases h
  | case5 inComment cs c line hs _ text left =>
    rename_i read rest' hread ih
    cases h
    intro m hm
    rcases List.mem_append.mp hm with hm | hm
    · exact isMember_of_mem_toList (not_mem_takeLine (c :: line)) hm
    · exact ih hread m hm

/-- The one member that may stand on the line of the header has the form of the others. -/
theorem isMember_of_members? {members : List String} (h : members? cs = some (members, rest)) :
    ∀ m ∈ members, IsMember m := by
  simp only [members?] at h
  split at h
  · cases h
    have hfeed : '\n' ∉ (trim (takeLine cs).1).dropLast :=
      fun hm => not_mem_takeLine cs (mem_of_mem_trim ((List.dropLast_prefix _).subset hm))
    exact fun m => isMember_of_mem_toList hfeed
  · exact isMember_of_body? h

theorem isMethod_iff {m : String} : isMethod m = true ↔ '(' ∈ m.toList ∧ ')' ∈ m.toList := by
  simp [isMethod]

theorem wellFormed_of_class? {c : ClassDecl} (h : class? cs = some (c, rest)) : c.WellFormed := by
  obtain ⟨kind, cs₁, cs₂, name, cs₃, cs₄, members, -, -, hname, -, hmembers, rfl⟩ :=
    pieces_of_class? h
  refine ⟨isName_of_name? hname, fun text => isStereotype_of_mem, ?_, ?_⟩
  · intro m hm
    obtain ⟨hmem, hplain⟩ := List.mem_filter.mp hm
    refine ⟨isMember_of_members? hmembers m hmem, fun hcall => ?_⟩
    rw [isMethod_iff.mpr hcall] at hplain
    cases hplain
  · intro m hm
    obtain ⟨hmem, hcall⟩ := List.mem_filter.mp hm
    exact ⟨isMember_of_members? hmembers m hmem, isMethod_iff.mp hcall⟩

theorem isLine_of_mem_label {text : String} (h : text ∈ (optionalLabel cs).1) : IsLine text := by
  unfold optionalLabel at h
  split at h
  · next shown left hlabel =>
    unfold label? at hlabel
    split at hlabel
    · cases hlabel
    · dsimp only at hlabel
      split at hlabel
      · cases hlabel
      · next behind _ _ =>
        cases hlabel
        split at h
        · cases h
        · next hne =>
          cases h
          refine isLine_trim (fun heq => hne ?_) (not_mem_takeLine (skipGap behind))
          rw [heq]
          rfl
  · cases h

theorem wellFormed_of_relation? {r : Relation} (h : relation? cs = some (r, rest)) :
    r.WellFormed := by
  obtain ⟨left, cs₁, kind, reversed, cs₂, right, cs₃, hleft, -, hright, rfl, -⟩ :=
    pieces_of_relation? h
  cases reversed with
  | false => exact ⟨isName_of_name? hleft, isName_of_name? hright, fun text => isLine_of_mem_label⟩
  | true => exact ⟨isName_of_name? hright, isName_of_name? hleft, fun text => isLine_of_mem_label⟩

theorem mem_items {item : Item} (h : item ∈ (items cs).1) :
    ∃ cs rest, item? cs = some (item, rest) := by
  fun_induction items cs with
  | case1 => cases h
  | case2 cs first rest hitem ih =>
    rcases List.mem_cons.mp h with rfl | h
    · exact ⟨cs, rest, hitem⟩
    · exact ih h

theorem wellFormed_ofItems (cs : List Char) : (ofItems (items cs).1).WellFormed where
  classes := by
    intro c hc
    obtain ⟨item, hmem, hdeclared⟩ := List.mem_filterMap.mp hc
    obtain ⟨text, rest, hitem⟩ := mem_items hmem
    rcases cases_of_itemAt? hitem with ⟨rfl, -⟩ | ⟨_, rfl, hclass⟩ | ⟨r, rfl, -⟩
    · cases hdeclared
    · cases hdeclared
      exact wellFormed_of_class? hclass
    · cases hdeclared
  relations := by
    intro r hr
    obtain ⟨item, hmem, hrelated⟩ := List.mem_filterMap.mp hr
    obtain ⟨text, rest, hitem⟩ := mem_items hmem
    rcases cases_of_itemAt? hitem with ⟨rfl, -⟩ | ⟨c, rfl, -⟩ | ⟨_, rfl, hrelation⟩
    · cases hrelated
    · cases hrelated
    · cases hrelated
      exact wellFormed_of_relation? hrelation

/-- Whatever text is accepted, the diagram it says is well formed. -/
theorem wellFormed_of_ofText {text : String} {d : ClassDiagram} (h : ofText text = .ok d) :
    d.WellFormed := by
  rw [(trim_items_of_ofText h).2]
  exact wellFormed_ofItems text.toList

/-- A class with a comment in it, one on one line, and two relations on one line. -/
def crowded : String :=
  "class A \x7b\n' aside\n x \n\x7d\nenum B <<one\n two>> \x7b f() \x7d\nA <|-- B A --> B : b"

theorem wellFormed_crowded : ∃ d : ClassDiagram, ofText crowded = .ok d ∧
    d.classes = [⟨.concrete, "A", none, ["x"], []⟩,
      ⟨.enumeration, "B", some "one\n two", [], ["f()"]⟩] ∧
    d.relations = [⟨"B", "A", .inheritance, none⟩, ⟨"A", "B", .association, some "b"⟩] ∧
    d.WellFormed := by
  let below := "enum B <<one\n two>> \x7b f() \x7d\nA <|-- B A --> B : b".toList
  let inside := "' aside".toList ++ '\n' :: (" x ".toList ++ '\n' :: ('}' :: '\n' :: below))
  have hbody : body? false inside = some (["x"], below) := by
    rw [body?_line false (by decide) (by decide), body?_line false (by decide) (by decide),
      body?_brace]
    rfl
  have hlong : item? crowded.toList =
      some (.declared ⟨.concrete, "A", none, ["x"], []⟩, below) := by
    have hopen : crowded.toList = Header.plain.chars ++ '\n' :: inside := rfl
    rw [hopen, Header.plain.item?_append, Header.plain.class?_append, members?_feed, hbody]
    rfl
  have hshort : item? below = some (.declared ⟨.enumeration, "B", some "one\n two", [], ["f()"]⟩,
      "A <|-- B A --> B : b".toList) := rfl
  have hfirst : item? "A <|-- B A --> B : b".toList =
      some (.related ⟨"B", "A", .inheritance, none⟩, "A --> B : b".toList) := rfl
  have hsecond : item? "A --> B : b".toList =
      some (.related ⟨"A", "B", .association, some "b"⟩, []) := rfl
  have hitems := items_of_item? hlong
  rw [items_of_item? hshort, items_of_item? hfirst, items_of_item? hsecond, items_nil] at hitems
  have hread := ofText_of_items hitems
  exact ⟨_, hread, rfl, rfl, wellFormed_of_ofText hread⟩

end ClassDiagram

end DotDiagram
