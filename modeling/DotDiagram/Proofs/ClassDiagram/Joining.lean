import DotDiagram.Proofs.ClassDiagram.Items
import DotDiagram.Proofs.ClassDiagram.Pieces
import Mathlib.Data.List.TakeWhile

/-! Diagrams joined. What is read from a text is read again when another text follows on a new
line, and then the other text is read. -/

namespace DotDiagram.ClassDiagram

variable {cs rest below : List Char}

theorem gap?_newline (cs below : List Char) :
    gap? (cs ++ '\n' :: below) = (gap? cs).map (· ++ '\n' :: below) :=
  gap?_linewise (.newline below) cs

theorem name?_newline (cs below : List Char) :
    name? (cs ++ '\n' :: below) = (name? cs).map fun read => (read.1, read.2 ++ '\n' :: below) :=
  name?_linewise (.newline below) cs

theorem kind?_newline (cs below : List Char) :
    kind? (cs ++ '\n' :: below) = (kind? cs).map fun read => (read.1, read.2 ++ '\n' :: below) :=
  kind?_linewise (.newline below) cs

theorem arrow?_newline (cs below : List Char) :
    arrow? (cs ++ '\n' :: below) = (arrow? cs).map fun read => (read.1, read.2 ++ '\n' :: below) :=
  arrow?_linewise (.newline below) cs

theorem label?_newline (cs below : List Char) :
    label? (cs ++ '\n' :: below) =
      (label? cs).map fun read => (read.1, read.2 ++ '\n' :: below) := by
  have hcolon : '\n' ∉ [':'] := by decide
  have hp : ('\n' != '\n') = false := rfl
  have htake := takeWhile_newline (p := (· != '\n')) hp
  have hdrop := dropWhile_newline (p := (· != '\n')) hp
  rw [label?, label?, skipGap_newline, after?_newline hcolon]
  cases after? [':'] (skipGap cs) with
  | none => rfl
  | some left =>
    simp only [Option.map_some, skipGap_newline, htake, hdrop]
    split <;> rfl

theorem stereotype?_newline {text : String} (h : stereotype? cs = some (text, rest))
    (below : List Char) :
    stereotype? (cs ++ '\n' :: below) = some (text, rest ++ '\n' :: below) := by
  obtain ⟨inner, shown, hopen, hclose, hshown, rfl⟩ := pieces_of_stereotype? h
  have hfirst : '\n' ∉ "<<".toList := by decide
  have hlast : '\n' ∉ ">>".toList := by decide
  simp only [stereotype?, after?_newline hfirst, hopen, Option.map_some,
    splitAtFirst?_newline hlast hclose, hshown, Bool.false_eq_true, if_false]

theorem skipGap_newline_of_cons {c : Char} {line : List Char} (h : skipGap cs = c :: line)
    (below : List Char) : skipGap (cs ++ '\n' :: below) = c :: (line ++ '\n' :: below) := by
  rw [skipGap_newline, h]
  rfl

/-- A body does not end with the text, so all that was left to read it from is still there. -/
theorem eq_onward_of_body? {inComment : Bool} {cs' : List Char}
    {read : List String × List Char} (hc : Continued below cs cs')
    (h : body? inComment cs = some read) : cs' = cs ++ '\n' :: below := by
  cases hc with
  | onward => rfl
  | ended =>
    rw [body?_of_skipGap_nil inComment rfl] at h
    cases h
  | endedByReturn =>
    have hs : skipGap ['\r'] = ['\r'] := rfl
    have hend (inComment : Bool) : body? inComment (takeLine ['\r']).2 = none :=
      body?_of_skipGap_nil inComment rfl
    simp [body?_of_skipGap hs, hend] at h

theorem body?_continued {inComment : Bool} {members : List String} {cs' : List Char}
    (hc : Continued below cs cs') (h : body? inComment cs = some (members, rest)) :
    ∃ rest', body? inComment cs' = some (members, rest') ∧ Continued below rest rest' := by
  obtain rfl := eq_onward_of_body? hc h
  clear hc
  induction inComment, cs using body?.induct generalizing members rest with
  | case1 inComment cs hs =>
    rw [body?_of_skipGap_nil inComment hs] at h
    cases h
  | case2 inComment cs c line hs hbrace =>
    have hs' := skipGap_newline_of_cons hs below
    rw [body?_of_skipGap hs, if_pos hbrace] at h
    rw [body?_of_skipGap hs', if_pos hbrace]
    cases h
    exact ⟨_, rfl, (takeLine_newline line below).2⟩
  | case3 inComment cs c line hs hbrace text left =>
    rename_i hcomment ih
    have hs' := skipGap_newline_of_cons hs below
    obtain ⟨htext, hleft⟩ := takeLine_newline (c :: line) below
    rw [body?_of_skipGap hs, if_neg hbrace, if_pos hcomment] at h
    rw [body?_of_skipGap hs', if_neg hbrace, ← List.cons_append, htext, if_pos hcomment]
    rw [eq_onward_of_body? hleft h]
    exact ih h
  | case4 inComment cs c line hs hbrace text left =>
    rename_i hcomment hnone ih
    rw [body?_of_skipGap hs, if_neg hbrace, if_neg hcomment, hnone] at h
    cases h
  | case5 inComment cs c line hs hbrace text left =>
    rename_i hcomment read rest' hread ih
    have hs' := skipGap_newline_of_cons hs below
    obtain ⟨htext, hleft⟩ := takeLine_newline (c :: line) below
    rw [body?_of_skipGap hs, if_neg hbrace, if_neg hcomment, hread] at h
    rw [body?_of_skipGap hs', if_neg hbrace, ← List.cons_append, htext, if_neg hcomment]
    rw [eq_onward_of_body? hleft hread]
    obtain ⟨rest'', hread', hrest⟩ := ih hread
    cases h
    exact ⟨rest'', by rw [hread']; rfl, hrest⟩

theorem members?_newline {members : List String} (h : members? cs = some (members, rest))
    (below : List Char) :
    ∃ rest', members? (cs ++ '\n' :: below) = some (members, rest') ∧
      Continued below rest rest' := by
  obtain ⟨hline, hrest⟩ := takeLine_newline cs below
  simp only [members?, hline] at h ⊢
  split at h
  · next hbrace =>
    cases h
    exact ⟨_, by rw [if_pos hbrace], hrest⟩
  · next hbrace =>
    rw [if_neg hbrace]
    exact body?_continued hrest h

/-- Only a stereotype that has been opened could be closed by what follows. -/
theorem optionalStereotype_newline {left : List Char}
    (h : after? ['{'] (skipGap (optionalStereotype cs).2) = some left) (below : List Char) :
    optionalStereotype (cs ++ '\n' :: below) =
      ((optionalStereotype cs).1, (optionalStereotype cs).2 ++ '\n' :: below) := by
  unfold optionalStereotype at h ⊢
  rw [skipGap_newline]
  cases hs : stereotype? (skipGap cs) with
  | some read => rw [stereotype?_newline hs]
  | none =>
    rw [hs] at h
    have hbrace : ∃ line, skipGap cs = '{' :: line := by
      cases hc : skipGap cs with
      | nil => simp [hc, after?] at h
      | cons c line =>
        by_cases heq : c = '{'
        · exact ⟨line, by rw [heq]⟩
        · simp [hc, after?, heq] at h
    obtain ⟨line, hline⟩ := hbrace
    rw [hline]
    rfl

theorem class?_newline {c : ClassDecl} (h : class? cs = some (c, rest)) (below : List Char) :
    ∃ rest', class? (cs ++ '\n' :: below) = some (c, rest') ∧ Continued below rest rest' := by
  obtain ⟨kind, cs₁, cs₂, name, cs₃, cs₄, members, hkind, hgap, hname, hbrace, hmembers, rfl⟩ :=
    pieces_of_class? h
  have hword : '\n' ∉ ['{'] := by decide
  obtain ⟨rest', hmembers', hrest⟩ := members?_newline hmembers below
  refine ⟨rest', ?_, hrest⟩
  simp only [class?, kind?_newline, hkind, Option.map_some, gap?_newline, hgap, Option.bind_some,
    name?_newline, hname, optionalStereotype_newline hbrace, skipGap_newline,
    after?_newline hword, hbrace, hmembers']

theorem optionalLabel_newline (cs below : List Char) :
    optionalLabel (cs ++ '\n' :: below) =
      ((optionalLabel cs).1, (optionalLabel cs).2 ++ '\n' :: below) := by
  rw [optionalLabel, optionalLabel, label?_newline]
  cases label? cs <;> rfl

theorem skipLineEnd_newline (cs below : List Char) :
    Continued below (skipLineEnd cs) (skipLineEnd (cs ++ '\n' :: below)) := by
  unfold skipLineEnd
  cases hl : lineEnd? cs with
  | some rest =>
    rw [lineEnd?_newline hl]
    exact .onward rest
  | none =>
    rcases lineEnd?_newline_of_none hl below with rfl | rfl | hnone
    · exact .ended
    · exact .endedByReturn
    · rw [hnone]
      exact .onward cs

theorem relation?_newline {r : Relation} (h : relation? cs = some (r, rest)) (below : List Char) :
    ∃ rest', relation? (cs ++ '\n' :: below) = some (r, rest') ∧ Continued below rest rest' := by
  obtain ⟨left, cs₁, kind, reversed, cs₂, right, cs₃, hleft, harrow, hright, rfl, rfl⟩ :=
    pieces_of_relation? h
  refine ⟨_, ?_, skipLineEnd_newline _ below⟩
  simp only [relation?, name?_newline, hleft, Option.map_some, skipGap_newline, arrow?_newline,
    harrow, hright, optionalLabel_newline]

theorem silent?_newline (h : silent? cs = some rest) (below : List Char) :
    ∃ rest', silent? (cs ++ '\n' :: below) = some rest' ∧ Continued below rest rest' := by
  rcases cases_of_silent? h with hl | ⟨c, line, hc, rfl, rfl⟩ | ⟨line, comment, left, rfl, hs, rfl⟩
  · refine ⟨rest ++ '\n' :: below, ?_, .onward rest⟩
    unfold silent?
    rw [lineEnd?_newline hl]
  · refine ⟨(takeLine (line ++ '\n' :: below)).2, ?_, (takeLine_newline line below).2⟩
    rcases hc with rfl | rfl <;> rfl
  · have hmark : '\n' ∉ "'/".toList := by decide
    refine ⟨(takeLine (left ++ '\n' :: below)).2, ?_, (takeLine_newline left below).2⟩
    show (splitAtFirst? "'/".toList (line ++ '\n' :: below)).map _ = _
    rw [splitAtFirst?_newline hmark hs]
    rfl

theorem itemAt?_newline {item : Item} (h : itemAt? cs = some (item, rest)) (below : List Char) :
    ∃ rest', itemAt? (cs ++ '\n' :: below) = some (item, rest') ∧ Continued below rest rest' := by
  rcases cases_of_itemAt? h with ⟨rfl, hs⟩ | ⟨c, rfl, hc⟩ | ⟨r, rfl, hr⟩
  · obtain ⟨rest', hs', hrest⟩ := silent?_newline hs below
    exact ⟨rest', itemAt?_of_silent? hs', hrest⟩
  · obtain ⟨rest', hc', hrest⟩ := class?_newline hc below
    exact ⟨rest', itemAt?_of_class? hc', hrest⟩
  · obtain ⟨rest', hr', hrest⟩ := relation?_newline hr below
    exact ⟨rest', itemAt?_of_relation? hr', hrest⟩

theorem item?_newline {item : Item} (h : item? cs = some (item, rest)) (below : List Char) :
    ∃ rest', item? (cs ++ '\n' :: below) = some (item, rest') ∧ Continued below rest rest' := by
  rw [item?, skipGap_newline]
  exact itemAt?_newline h below

/-- All white space is spaces, tabs, line feeds, and carriage returns before line feeds. -/
def Spaced : List Char → Prop
  | [] => True
  | c :: cs =>
    (isBlank c = true → isGap c = true ∨ c = '\n' ∨ c = '\r' ∧ cs.head? = some '\n') ∧ Spaced cs

instance decidableSpaced : (cs : List Char) → Decidable (Spaced cs)
  | [] => isTrue trivial
  | _ :: cs =>
    have := decidableSpaced cs
    inferInstanceAs (Decidable (_ ∧ _))

theorem Spaced.of_suffix (h : Spaced cs) (hr : rest <:+ cs) : Spaced rest := by
  obtain ⟨before, rfl⟩ := hr
  induction before with
  | nil => exact h
  | cons c before ih => exact ih h.2

theorem isBlank_of_trim (h : trim cs = []) : ∀ c ∈ cs, isBlank c = true := by
  rw [trim, trimRight, List.reverse_eq_nil_iff, List.dropWhile_eq_nil_iff] at h
  intro c hc
  rw [← List.takeWhile_append_dropWhile (p := isBlank) (l := cs)] at hc
  rcases List.mem_append.mp hc with hc | hc
  · exact List.mem_takeWhile_imp hc
  · exact h c (List.mem_reverse.mpr hc)

/-- What is blank and yet no item is part of a line. -/
theorem isGap_of_item? (hs : Spaced cs) (hb : ∀ c ∈ cs, isBlank c = true) (h : item? cs = none) :
    ∀ c ∈ cs, isGap c = true := by
  cases hskip : skipGap cs with
  | nil => exact List.dropWhile_eq_nil_iff.mp hskip
  | cons c line =>
    have hsuffix : c :: line <:+ cs := hskip ▸ suffix_skipGap cs
    have hc : isBlank c = true := hb c (hsuffix.subset List.mem_cons_self)
    rw [item?, hskip] at h
    rcases (hs.of_suffix hsuffix).1 hc with hgap | rfl | ⟨rfl, hfeed⟩
    · have hstop := List.head?_dropWhile_not isGap cs
      rw [← skipGap, hskip] at hstop
      simp [hgap] at hstop
    · cases h
    · obtain ⟨line', rfl⟩ := List.head?_eq_some_iff.mp hfeed
      cases h

/-- The items of two texts, the second one on a new line. Blanks at the end of the first one
make a line of their own. -/
theorem items_newline (hs : Spaced cs) (hb : trim (items cs).2 = []) (below : List Char) :
    ∃ line, (∀ item ∈ line, item = .silent) ∧
      items (cs ++ '\n' :: below) = ((items cs).1 ++ line ++ (items below).1, (items below).2) := by
  fun_induction items cs with
  | case1 cs hnone =>
    have hgaps := isGap_of_item? hs (isBlank_of_trim hb) hnone
    have hitem : item? (cs ++ '\n' :: below) = some (.silent, below) := by
      rw [item?, skipGap_append hgaps]
      rfl
    exact ⟨[.silent], by simp, by rw [items_of_item? hitem]; rfl⟩
  | case2 cs item rest hitem ih =>
    have hrest := hs.of_suffix (suffix_of_item? hitem)
    obtain ⟨rest', hitem', hc⟩ := item?_newline hitem below
    cases hc with
    | onward =>
      obtain ⟨line, hline, hitems⟩ := ih hrest hb
      exact ⟨line, hline, by rw [items_of_item? hitem', hitems]; rfl⟩
    | ended =>
      refine ⟨[], nofun, ?_⟩
      rw [items_of_item? hitem', items_nil]
      rfl
    | endedByReturn =>
      -- a carriage return at the end of the text
      rcases hrest.1 rfl with h | h | ⟨-, h⟩ <;> cases h

theorem ofItems_append (first last : List Item) :
    ofItems (first ++ last) = ⟨(ofItems first).classes ++ (ofItems last).classes,
      (ofItems first).relations ++ (ofItems last).relations⟩ := by
  simp only [ofItems, List.filterMap_append]

theorem ofItems_silent {line : List Item} (h : ∀ item ∈ line, item = .silent) :
    ofItems line = ⟨[], []⟩ := by
  have hdeclared : line.filterMap Item.declared? = [] :=
    List.filterMap_eq_nil_iff.mpr fun item hi => h item hi ▸ rfl
  have hrelated : line.filterMap Item.related? = [] :=
    List.filterMap_eq_nil_iff.mpr fun item hi => h item hi ▸ rfl
  rw [ofItems, hdeclared, hrelated]

theorem trim_items_of_ofText {text : String} {d : ClassDiagram} (h : ofText text = .ok d) :
    trim (items text.toList).2 = [] ∧ d = ofItems (items text.toList).1 := by
  simp only [ofText] at h
  split at h
  · next hrest =>
    cases h
    exact ⟨List.isEmpty_iff.mp hrest, rfl⟩
  · cases h

theorem ofText_newline {a : String} {d : ClassDiagram} (ha : ofText a = .ok d)
    (hs : Spaced a.toList) (b : String) :
    ofText (a ++ "\n" ++ b) = (ofText b).map fun e =>
      ⟨d.classes ++ e.classes, d.relations ++ e.relations⟩ := by
  obtain ⟨hrest, rfl⟩ := trim_items_of_ofText ha
  obtain ⟨line, hline, hitems⟩ := items_newline hs hrest b.toList
  have htext : (a ++ "\n" ++ b).toList = a.toList ++ '\n' :: b.toList := by
    simp
  simp only [ofText, htext, hitems, ofItems_append, ofItems_silent hline, List.append_nil]
  split <;> rfl

/-- Reading is compositional: of two texts, the second on a new line, the one is read and then
the other. What says nothing may stand between them. -/
theorem ofText_joined {a : String} {d : ClassDiagram} (ha : ofText a = .ok d)
    (hs : Spaced a.toList) :
    (∀ b, ofText (a ++ "\n" ++ b) = (ofText b).map fun e =>
      ⟨d.classes ++ e.classes, d.relations ++ e.relations⟩) ∧
    ∀ middle : String, (∃ m, ofText middle = .ok m) → Spaced middle.toList →
      (∀ item ∈ (items middle.toList).1, item = .silent) →
        ∀ b, ofText (a ++ "\n" ++ middle ++ "\n" ++ b) = ofText (a ++ "\n" ++ b) := by
  refine ⟨ofText_newline ha hs, ?_⟩
  rintro middle ⟨m, hm⟩ hspaced hsilent b
  have hassoc : a ++ "\n" ++ middle ++ "\n" ++ b = a ++ "\n" ++ (middle ++ "\n" ++ b) := by
    simp only [String.append_assoc]
  have hempty : m = ⟨[], []⟩ := by
    rw [(trim_items_of_ofText hm).2]
    exact ofItems_silent hsilent
  rw [hassoc, ofText_newline ha hs, ofText_newline hm hspaced, ofText_newline ha hs, hempty]
  cases ofText b <;> rfl

theorem ofText_indent (indent : Blanks) (cs : List Char) :
    ofText (String.ofList (indent.chars ++ cs)) = ofText (String.ofList cs) := by
  have hskip : skipGap (indent.chars ++ cs) = skipGap cs := skipGap_append indent.gaps
  have hitem : item? (indent.chars ++ cs) = item? cs := congrArg itemAt? hskip
  cases hread : item? cs with
  | some read =>
    rw [hread] at hitem
    rw [ofText_ofList, ofText_ofList, items_of_item? hread, items_of_item? hitem]
  | none =>
    have hleft : trimLeft (indent.chars ++ cs) = trimLeft cs := by
      rw [← trimLeft_skipGap, hskip, trimLeft_skipGap]
    have htrim : trim (indent.chars ++ cs) = trim cs := congrArg trimRight hleft
    have hcomplaint : complaint (indent.chars ++ cs) = complaint cs := by
      simp only [complaint, hleft]
    rw [hread] at hitem
    rw [ofText_ofList, ofText_ofList, items_of_none hread, items_of_none hitem, htrim, hcomplaint]

/-- What may stand before a text, so that the text is read as without it. -/
inductive Before : List Char → Prop where
  | indent (blanks : Blanks) : Before blanks.chars
  | lines {a : String} {d : ClassDiagram} (ha : ofText a = .ok d) (hs : Spaced a.toList)
      (blanks : Blanks) : Before (a.toList ++ '\n' :: blanks.chars)

theorem ofText_before {before : List Char} (h : Before before) :
    ∃ d : ClassDiagram, ∀ cs, ofText (String.ofList (before ++ cs)) =
      (ofText (String.ofList cs)).map fun e =>
        ⟨d.classes ++ e.classes, d.relations ++ e.relations⟩ := by
  cases h with
  | indent blanks =>
    refine ⟨⟨[], []⟩, fun cs => ?_⟩
    rw [ofText_indent]
    cases ofText (String.ofList cs) <;> rfl
  | @lines a d ha hs blanks =>
    refine ⟨d, fun cs => ?_⟩
    have htext : String.ofList (a.toList ++ '\n' :: blanks.chars ++ cs) =
        a ++ "\n" ++ String.ofList (blanks.chars ++ cs) := by
      rw [← String.toList_inj]
      simp
    rw [htext, ofText_newline ha hs, ofText_indent]

/-- The texts are read alike wherever they stand. -/
def ReadAlike (cs ds : List Char) : Prop :=
  ∀ before, Before before →
    ofText (String.ofList (before ++ cs)) = ofText (String.ofList (before ++ ds))

/-- They are read alike if they are accepted, though not rejected with the same words. -/
def SaySame (cs ds : List Char) : Prop :=
  ∀ before, Before before → diagram? (before ++ cs) = diagram? (before ++ ds)

theorem readAlike_iff {ds : List Char} :
    ReadAlike cs ds ↔ ofText (String.ofList cs) = ofText (String.ofList ds) := by
  constructor
  · intro h
    exact h [] (.indent ⟨[], nofun⟩)
  · intro h before hbefore
    obtain ⟨d, hd⟩ := ofText_before hbefore
    rw [hd, hd, h]

theorem saySame_iff {ds : List Char} : SaySame cs ds ↔ diagram? cs = diagram? ds := by
  constructor
  · intro h
    exact h [] (.indent ⟨[], nofun⟩)
  · intro h before hbefore
    obtain ⟨d, hd⟩ := ofText_before hbefore
    have hmap : ∀ cs, diagram? (before ++ cs) = (diagram? cs).map fun e =>
        ⟨d.classes ++ e.classes, d.relations ++ e.relations⟩ := by
      intro cs
      rw [diagram?, diagram?, hd]
      cases ofText (String.ofList cs) <;> rfl
    rw [hmap, hmap, h]

/-- A class and a relation, with a tab behind them. -/
def shapes : String := "class A {}\r\nA --> B : b\n\t"

/-- A comment and a directive. -/
def aside : String := "' in passing\n@skip"

theorem shapes_joined :
    ofText shapes = .ok ⟨[⟨.concrete, "A", none, [], []⟩], [⟨"A", "B", .association, some "b"⟩]⟩ ∧
      (∀ b, ofText (shapes ++ "\n" ++ b) = (ofText b).map fun e =>
        ⟨⟨.concrete, "A", none, [], []⟩ :: e.classes,
          ⟨"A", "B", .association, some "b"⟩ :: e.relations⟩) ∧
      ∀ b, ofText (shapes ++ "\n" ++ aside ++ "\n" ++ b) = ofText (shapes ++ "\n" ++ b) := by
  have hshapes : items shapes.toList = ([.declared ⟨.concrete, "A", none, [], []⟩,
      .related ⟨"A", "B", .association, some "b"⟩], ['\t']) := by
    have hclass : item? shapes.toList = some (.declared ⟨.concrete, "A", none, [], []⟩,
        "A --> B : b\n\t".toList) := rfl
    have hrelation : item? "A --> B : b\n\t".toList =
        some (.related ⟨"A", "B", .association, some "b"⟩, "\t".toList) := rfl
    rw [items_of_item? hclass, items_of_item? hrelation, items_of_none rfl]
    rfl
  have haside : items aside.toList = ([.silent, .silent], []) := by
    have hcomment : item? aside.toList = some (.silent, "@skip".toList) := rfl
    have hdirective : item? "@skip".toList = some (.silent, []) := rfl
    rw [items_of_item? hcomment, items_of_item? hdirective, items_nil]
  have ha : ofText shapes = .ok ⟨[⟨.concrete, "A", none, [], []⟩],
      [⟨"A", "B", .association, some "b"⟩]⟩ := by
    simp only [ofText, hshapes]
    rfl
  have hm : ofText aside = .ok ⟨[], []⟩ := by
    simp only [ofText, haside]
    rfl
  have hsilent : ∀ item ∈ (items aside.toList).1, item = .silent := by
    rw [haside]
    decide
  obtain ⟨hjoined, haside⟩ := ofText_joined ha (by decide)
  exact ⟨ha, hjoined, haside aside ⟨_, hm⟩ (by decide) hsilent⟩

end DotDiagram.ClassDiagram
