import DotDiagram.Proofs.ClassDiagram.Header
import DotDiagram.Proofs.Text.Returns

/-! Line feeds with or without carriage returns. A class is read from both alike, but for a
stereotype of several lines. A relation is not, if a colon alone follows it: the carriage return
counts as its label. -/

namespace DotDiagram

def returnedText (s : String) : String := String.ofList (returned s.toList)

def ClassDecl.withReturns (c : ClassDecl) : ClassDecl :=
  { c with stereotype := c.stereotype.map returnedText }

/-- With the carriage returns in the stereotypes. -/
def ClassDiagram.withReturns (d : ClassDiagram) : ClassDiagram :=
  ⟨d.classes.map ClassDecl.withReturns, d.relations⟩

namespace ClassDiagram

variable {cs rest : List Char}

def Item.withReturns : Item → Item
  | .declared c => .declared c.withReturns
  | item => item

theorem stereotype?_returned (cs : List Char) :
    stereotype? (returned cs) =
      (stereotype? cs).map fun read => (returnedText read.1, returned read.2) := by
  have hopen : after? "<<".toList (returned cs) = (after? "<<".toList cs).map returned :=
    after?_returned (by decide) (by decide) cs
  simp only [stereotype?, hopen]
  cases after? "<<".toList cs with
  | none => rfl
  | some left =>
    have hsplit : splitAtFirst? ">>".toList (returned left) =
        (splitAtFirst? ">>".toList left).map fun split => (returned split.1, returned split.2) :=
      splitAtFirst?_returned (by decide) (by decide) left
    simp only [Option.map_some, hsplit]
    cases splitAtFirst? ">>".toList left with
    | none => rfl
    | some split =>
      simp only [Option.map_some, isEmpty_returned, trim_returned]
      split <;> simp [returnedText]

theorem optionalStereotype_returned (cs : List Char) :
    optionalStereotype (returned cs) =
      ((optionalStereotype cs).1.map returnedText, returned (optionalStereotype cs).2) := by
  rw [optionalStereotype, optionalStereotype, Linewise.returned.skipGap_eq, stereotype?_returned]
  cases stereotype? (skipGap cs) <;> rfl

theorem exists_cons_returned (c : Char) (line : List Char) :
    ∃ d ds, returned (c :: line) = d :: ds ∧ (d == '}') = (c == '}') ∧
      (c = '}' → ds = returned line) := by
  by_cases hc : c = '\n'
  · exact ⟨'\r', '\n' :: returned line, by rw [hc, returned_feed], by rw [hc]; rfl, by rw [hc]; nofun⟩
  · exact ⟨c, returned line, returned_cons hc line, rfl, fun _ => rfl⟩

theorem body?_returned (inComment : Bool) (cs : List Char) :
    body? inComment (returned cs) =
      (body? inComment cs).map fun read => (read.1, returned read.2) := by
  induction hn : cs.length using Nat.strongRecOn generalizing inComment cs with
  | ind n ih =>
    have hskip := Linewise.returned.skipGap_eq cs
    cases hs : skipGap cs with
    | nil =>
      rw [hs] at hskip
      rw [body?_of_skipGap_nil inComment hs, body?_of_skipGap_nil inComment hskip]
      rfl
    | cons c line =>
      obtain ⟨d, ds, hcons, hbrace, hline⟩ := exists_cons_returned c line
      have hbelow : (takeLine (c :: line)).2.length < n := by
        have hshort := length_takeLine_lt (List.cons_ne_nil c line)
        have hle := length_skipGap_le cs
        rw [hs] at hle
        omega
      have htrim := trim_takeLine_returned (c :: line)
      have hrest := below_returned (c :: line)
      rw [hs, hcons] at hskip
      rw [hcons] at htrim hrest
      rw [body?_of_skipGap hs, body?_of_skipGap hskip, hbrace, htrim, hrest]
      split
      · next hend =>
        rw [Bool.and_eq_true, beq_iff_eq] at hend
        rw [hline hend.2, below_returned]
        rfl
      · split
        · exact ih _ hbelow _ _ rfl
        · rw [ih _ hbelow false _ rfl]
          cases body? false (takeLine (c :: line)).2 <;> rfl

theorem members?_returned (cs : List Char) :
    members? (returned cs) = (members? cs).map fun read => (read.1, returned read.2) := by
  simp only [members?, trim_takeLine_returned, below_returned]
  split
  · rfl
  · exact body?_returned false _

theorem class?_returned (cs : List Char) :
    class? (returned cs) = (class? cs).map fun read => (read.1.withReturns, returned read.2) := by
  have hbrace : ∀ cs, after? ['{'] (returned cs) = (after? ['{'] cs).map returned :=
    after?_returned (by decide) (by decide)
  simp only [class?, kind?_linewise .returned]
  cases kind? cs with
  | none => rfl
  | some read =>
    obtain ⟨kind, left⟩ := read
    simp only [Option.map_some, gap?_linewise .returned]
    cases gap? left with
    | none => rfl
    | some left =>
      simp only [Option.map_some, Option.bind_some, name?_linewise .returned]
      cases name? left with
      | none => rfl
      | some read =>
        obtain ⟨name, left⟩ := read
        simp only [Option.map_some, optionalStereotype_returned, Linewise.returned.skipGap_eq,
          hbrace]
        cases after? ['{'] (skipGap (optionalStereotype left).2) with
        | none => rfl
        | some left =>
          simp only [Option.map_some, Option.bind_some, members?_returned]
          cases members? left <;> rfl

/-- The label of a relation, and what is left behind its line. -/
def labelled (cs : List Char) : Option String × List Char :=
  ((optionalLabel cs).1, skipLineEnd (skipGap (optionalLabel cs).2))

theorem skipLineEnd_dropWhile (cs : List Char) :
    skipLineEnd (skipGap (cs.dropWhile (· != '\n'))) = (takeLine cs).2 := by
  have hstop := List.head?_dropWhile_not (· != '\n') cs
  rw [takeLine]
  cases hd : cs.dropWhile (· != '\n') with
  | nil => rfl
  | cons c rest =>
    rw [hd] at hstop
    have hc : c = '\n' := by simpa using hstop
    rw [hc]
    rfl

theorem labelled_of_none (h : after? [':'] (skipGap cs) = none) :
    labelled cs = (none, skipLineEnd (skipGap cs)) := by
  have hlabel : label? cs = none := by rw [label?, h]
  simp only [labelled, optionalLabel, hlabel]

theorem labelled_of_empty {left : List Char} (h : after? [':'] (skipGap cs) = some left)
    (ht : (takeLine (skipGap left)).1 = []) : labelled cs = (none, ':' :: left) := by
  have hlabel : label? cs = none := by
    have hnil : (skipGap left).takeWhile (· != '\n') = [] := ht
    simp only [label?, h, hnil]
    rfl
  simp only [labelled, optionalLabel, hlabel, eq_of_after? h]
  rfl

theorem labelled_of_text {left : List Char} (h : after? [':'] (skipGap cs) = some left)
    (ht : (takeLine (skipGap left)).1 ≠ []) :
    labelled cs =
      let text := String.ofList (trim (takeLine (skipGap left)).1)
      (if text.isEmpty then none else some text, (takeLine (skipGap left)).2) := by
  have hshown : ((skipGap left).takeWhile (· != '\n')).isEmpty = false :=
    List.isEmpty_eq_false_iff.mpr ht
  have hlabel : label? cs = some (String.ofList (trim (takeLine (skipGap left)).1),
      (skipGap left).dropWhile (· != '\n')) := by
    simp only [label?, h, hshown]
    rfl
  simp only [labelled, optionalLabel, hlabel, skipLineEnd_dropWhile]

theorem skipLineEnd_returned (hr : '\r' ∉ cs) :
    skipLineEnd (returned cs) = returned (skipLineEnd cs) := by
  rw [skipLineEnd, skipLineEnd, lineEnd?_returned hr]
  cases lineEnd? cs <;> rfl

theorem labelled_returned (hr : '\r' ∉ cs)
    (h : ∀ left below, skipGap cs = ':' :: left → skipGap left ≠ '\n' :: below) :
    labelled (returned cs) = ((labelled cs).1, returned (labelled cs).2) := by
  have hskip := Linewise.returned.skipGap_eq cs
  have hafter : after? [':'] (skipGap (returned cs)) =
      (after? [':'] (skipGap cs)).map returned := by
    rw [hskip]
    exact after?_returned (by decide) (by decide) _
  have hgap : '\r' ∉ skipGap cs := fun hm => hr ((suffix_skipGap cs).subset hm)
  cases hcolon : after? [':'] (skipGap cs) with
  | none =>
    rw [hcolon] at hafter
    rw [labelled_of_none hcolon, labelled_of_none hafter, hskip, skipLineEnd_returned hgap]
  | some left =>
    rw [hcolon] at hafter
    have hleft := Linewise.returned.skipGap_eq left
    cases hs : skipGap left with
    | nil =>
      rw [hs] at hleft
      rw [labelled_of_empty hcolon (by rw [hs]; rfl), labelled_of_empty hafter (by rw [hleft]; rfl)]
      rfl
    | cons c text =>
      have hc : c ≠ '\n' := by
        rintro rfl
        exact h left text (eq_of_after? hcolon) hs
      have hne : (takeLine (skipGap left)).1 ≠ [] := by
        rw [hs, takeLine, List.takeWhile_cons_of_pos (by simpa using hc)]
        simp
      have hne' : (takeLine (skipGap (returned left))).1 ≠ [] := by
        rw [hleft, takeLine_returned]
        simp [hne]
      rw [labelled_of_text hcolon hne, labelled_of_text hafter hne', hleft, below_returned,
        trim_takeLine_returned]

/-- The carriage return stands for a label, though one that is left out. -/
theorem labelled_colon {left below : List Char} (hcolon : skipGap cs = ':' :: left)
    (hfeed : skipGap left = '\n' :: below) :
    labelled cs = (none, ':' :: left) ∧ labelled (returned cs) = (none, returned below) := by
  have hafter : after? [':'] (skipGap cs) = some left := by
    rw [hcolon]
    rfl
  have hafter' : after? [':'] (skipGap (returned cs)) = some (returned left) := by
    rw [Linewise.returned.skipGap_eq, after?_returned (by decide) (by decide), hafter]
    rfl
  have hline : skipGap (returned left) = '\r' :: '\n' :: returned below := by
    rw [Linewise.returned.skipGap_eq, hfeed, returned_feed]
  refine ⟨labelled_of_empty hafter (by rw [hfeed]; rfl), ?_⟩
  rw [labelled_of_text hafter' (by rw [hline]; nofun), hline]
  rfl

/-- The names of a relation and the arrow between them, and what is left. -/
def ends? (cs : List Char) :
    Option ((String × (RelationKind × Bool) × String) × List Char) :=
  (name? cs).bind fun first => (arrow? (skipGap first.2)).bind fun arrow =>
    (name? (skipGap arrow.2)).map fun second => ((first.1, arrow.1, second.1), second.2)

def relationOf (ends : String × (RelationKind × Bool) × String) (label : Option String) : Relation :=
  let (source, target) := if ends.2.1.2 then (ends.2.2, ends.1) else (ends.1, ends.2.2)
  ⟨source, target, ends.2.1.1, label⟩

theorem relation?_eq_map (cs : List Char) :
    relation? cs = (ends? cs).map fun read =>
      (relationOf read.1 (labelled read.2).1, (labelled read.2).2) := by
  unfold relation? ends?
  cases name? cs with
  | none => rfl
  | some first =>
    simp only [Option.bind_some]
    cases arrow? (skipGap first.2) with
    | none => rfl
    | some arrow =>
      simp only [Option.bind_some]
      cases name? (skipGap arrow.2) <;> rfl

theorem ends?_returned (cs : List Char) :
    ends? (returned cs) = (ends? cs).map fun read => (read.1, returned read.2) := by
  unfold ends?
  rw [name?_linewise .returned]
  cases name? cs with
  | none => rfl
  | some first =>
    simp only [Option.map_some, Option.bind_some, Linewise.returned.skipGap_eq,
      arrow?_linewise .returned]
    cases arrow? (skipGap first.2) with
    | none => rfl
    | some arrow =>
      simp only [Option.map_some, Option.bind_some, Linewise.returned.skipGap_eq,
        name?_linewise .returned]
      cases name? (skipGap arrow.2) <;> rfl

theorem suffix_of_ends? {ends : String × (RelationKind × Bool) × String}
    (h : ends? cs = some (ends, rest)) : rest <:+ cs := by
  simp only [ends?, Option.bind_eq_some_iff, Option.map_eq_some_iff] at h
  obtain ⟨⟨first, cs₁⟩, hfirst, ⟨arrow, cs₂⟩, harrow, ⟨second, cs₃⟩, hsecond, heq⟩ := h
  cases heq
  have hsource : cs₂ <:+ cs :=
    (suffix_of_arrow? harrow).trans ((suffix_skipGap cs₁).trans (suffix_of_name? hfirst))
  exact (suffix_of_name? hsecond).trans ((suffix_skipGap cs₂).trans hsource)

theorem silent?_returned (hr : '\r' ∉ cs) :
    silent? (returned cs) = (silent? cs).map returned := by
  cases cs with
  | nil => rfl
  | cons c cs =>
    have hreturn : c ≠ '\r' := fun heq => hr (heq ▸ List.mem_cons_self)
    by_cases hfeed : c = '\n'
    · rw [hfeed]
      rfl
    rw [returned_cons hfeed]
    by_cases hquote : c = '\''
    · rw [hquote]
      exact congrArg some (below_returned cs)
    by_cases hat : c = '@'
    · rw [hat]
      exact congrArg some (below_returned cs)
    by_cases hslash : c = '/'
    · subst hslash
      cases cs with
      | nil => rfl
      | cons d ds =>
        by_cases hd : d = '\''
        · have hclose : splitAtFirst? ['\'', '/'] (returned ds) =
              (splitAtFirst? ['\'', '/'] ds).map fun split => (returned split.1, returned split.2) :=
            splitAtFirst?_returned (by decide) (by decide) ds
          rw [hd, returned_cons (by decide)]
          show (splitAtFirst? ['\'', '/'] (returned ds)).map _ =
            ((splitAtFirst? ['\'', '/'] ds).map _).map returned
          rw [hclose]
          cases splitAtFirst? ['\'', '/'] ds with
          | none => rfl
          | some split => exact congrArg some (below_returned split.2)
        · have hhead : (returned (d :: ds)).head? ≠ some '\'' := by
            by_cases hfeed : d = '\n'
            · rw [hfeed]
              nofun
            · rw [returned_cons hfeed]
              simpa using hd
          rw [silent?_slash hhead, silent?_slash (by simpa using hd)]
          rfl
    · rw [silent?_of_ne hfeed hreturn hquote hslash hat, silent?_of_ne hfeed hreturn hquote hslash hat]
      rfl

/-- One of the relations that are read has a colon behind it, but no label. -/
inductive BareColon : List Char → Prop where
  | here {ends : String × (RelationKind × Bool) × String} {cs behind left below : List Char}
      (hends : ends? (skipGap cs) = some (ends, behind)) (hcolon : skipGap behind = ':' :: left)
      (hfeed : skipGap left = '\n' :: below) : BareColon cs
  | later {item : Item} {cs rest : List Char} (hitem : item? cs = some (item, rest))
      (hrest : BareColon rest) : BareColon cs

theorem item?_of_ends? {ends : String × (RelationKind × Bool) × String} {behind : List Char}
    (h : ends? (skipGap cs) = some (ends, behind)) :
    item? cs = some (.related (relationOf ends (labelled behind).1), (labelled behind).2) := by
  have hrelation : relation? (skipGap cs) =
      some (relationOf ends (labelled behind).1, (labelled behind).2) := by
    rw [relation?_eq_map, h]
    rfl
  exact itemAt?_of_relation? hrelation

theorem item?_returned (hr : '\r' ∉ cs) (hb : ¬ BareColon cs) :
    item? (returned cs) = (item? cs).map fun read => (read.1.withReturns, returned read.2) := by
  have hgap : '\r' ∉ skipGap cs := fun hm => hr ((suffix_skipGap cs).subset hm)
  have hrelation : relation? (returned (skipGap cs)) =
      (relation? (skipGap cs)).map fun read => (read.1, returned read.2) := by
    rw [relation?_eq_map, relation?_eq_map, ends?_returned]
    cases hends : ends? (skipGap cs) with
    | none => rfl
    | some read =>
      have hbehind : '\r' ∉ read.2 := fun hm => hgap ((suffix_of_ends? hends).subset hm)
      have hlabel := labelled_returned hbehind fun left below hcolon hfeed =>
        hb (.here hends hcolon hfeed)
      simp only [Option.map_some, hlabel]
  rw [item?, item?, Linewise.returned.skipGap_eq]
  simp only [itemAt?, silent?_returned hgap, class?_returned, hrelation]
  cases silent? (skipGap cs) with
  | some left => rfl
  | none =>
    cases class? (skipGap cs) with
    | some read => rfl
    | none => cases relation? (skipGap cs) <;> rfl

theorem items_returned (hr : '\r' ∉ cs) (hb : ¬ BareColon cs) :
    items (returned cs) = ((items cs).1.map Item.withReturns, returned (items cs).2) := by
  fun_induction items cs with
  | case1 cs hnone =>
    have hitem := item?_returned hr hb
    rw [hnone] at hitem
    rw [items_of_none hitem]
    rfl
  | case2 cs item rest hitem ih =>
    have hitem' := item?_returned hr hb
    rw [hitem] at hitem'
    have hrest : '\r' ∉ rest := fun hm => hr ((suffix_of_item? hitem).subset hm)
    rw [items_of_item? hitem', ih hrest fun h => hb (.later hitem h)]
    rfl

theorem complaint_returned (cs : List Char) : complaint (returned cs) = complaint cs := by
  have hline := trim_takeLine_returned (trimLeft cs)
  simp only [takeLine] at hline
  simp only [complaint, trimLeft_returned, hline]

theorem ofItems_withReturns (read : List Item) :
    ofItems (read.map Item.withReturns) = (ofItems read).withReturns := by
  have hdeclared : Item.declared? ∘ Item.withReturns =
      fun item => item.declared?.map ClassDecl.withReturns := by
    funext item
    cases item <;> rfl
  have hrelated : Item.related? ∘ Item.withReturns = Item.related? := by
    funext item
    cases item <;> rfl
  rw [ofItems, List.filterMap_map, List.filterMap_map, hdeclared, hrelated, ← List.map_filterMap]
  rfl

theorem ofText_returned {s : List Char} (hr : '\r' ∉ s) (hb : ¬ BareColon s) :
    ofText (String.ofList (returned s)) =
      (ofText (String.ofList s)).map ClassDiagram.withReturns := by
  simp only [ofText_ofList, items_returned hr hb, trim_returned, returned_eq_nil,
    complaint_returned, ofItems_withReturns]
  split <;> rfl

theorem complaint_colon {left below : List Char} (h : skipGap left = '\n' :: below) :
    complaint (':' :: left) = ":" := by
  have hcolon : isBlank ':' = false := by decide
  obtain ⟨gap, hgap⟩ := Blanks.exists_skipGap left
  have hline : '\n' ∉ ':' :: gap.chars := by
    have hfeed : '\n' ∉ gap.chars := fun hm => absurd (gap.gaps _ hm) (by decide)
    simp [hfeed]
  have hleft : trimLeft (':' :: left) = (':' :: gap.chars) ++ '\n' :: below := by
    rw [hgap, h]
    exact trimLeft_append_cons hcolon [] _
  have htrim : trim (':' :: gap.chars) = [':'] := by
    have hblank : trimRight gap.chars = [] :=
      trimRight_eq_nil fun c hc => isBlank_of_isGap (gap.gaps c hc)
    exact (trim_append_cons hcolon [] _).trans (by rw [hblank]; rfl)
  simp only [complaint, hleft, (span_line hline below).1, htrim]
  rfl

theorem ofText_of_bareColon {s : List Char} (h : BareColon s) :
    ofText (String.ofList s) = .error (.unexpected ":") := by
  have hstop : ∃ left below, (items s).2 = ':' :: left ∧ skipGap left = '\n' :: below := by
    induction h with
    | @here ends cs behind left below hends hcolon hfeed =>
      have hitem := item?_of_ends? hends
      have hnone : item? (':' :: left) = none := rfl
      rw [(labelled_colon hcolon hfeed).1] at hitem
      exact ⟨left, below, by rw [items_of_item? hitem, items_of_none hnone], hfeed⟩
    | later hitem _ ih =>
      rw [items_of_item? hitem]
      exact ih
  obtain ⟨left, below, hleft, hfeed⟩ := hstop
  have hshown : trim (':' :: left) ≠ [] := by
    have htrim : trim (':' :: left) = ':' :: trimRight left := trim_append_cons (by decide) [] left
    rw [htrim]
    nofun
  rw [ofText_ofList, hleft, complaint_colon hfeed, if_neg hshown]

/-- The relation is read, and reading goes on below it. -/
theorem item?_returned_colon {ends : String × (RelationKind × Bool) × String}
    {behind left below : List Char} (hends : ends? (skipGap cs) = some (ends, behind))
    (hcolon : skipGap behind = ':' :: left) (hfeed : skipGap left = '\n' :: below) :
    item? (returned cs) = some (.related (relationOf ends none), returned below) := by
  have hreturned : ends? (skipGap (returned cs)) = some (ends, returned behind) := by
    rw [Linewise.returned.skipGap_eq, ends?_returned, hends]
    rfl
  rw [item?_of_ends? hreturned, (labelled_colon hcolon hfeed).2]

theorem returnedText_eq_self {text : String} : returnedText text = text ↔ '\n' ∉ text.toList := by
  rw [← returned_eq_self, ← String.toList_inj, returnedText, String.toList_ofList]

theorem decl_withReturns_eq_self (c : ClassDecl) :
    c.withReturns = c ↔ ∀ text ∈ c.stereotype, '\n' ∉ text.toList := by
  obtain ⟨kind, name, stereotype, attributes, methods⟩ := c
  cases stereotype with
  | none => simp [ClassDecl.withReturns]
  | some text => simp [ClassDecl.withReturns, returnedText_eq_self]

theorem withReturns_eq_self (d : ClassDiagram) :
    d.withReturns = d ↔ ∀ c ∈ d.classes, ∀ text ∈ c.stereotype, '\n' ∉ text.toList := by
  have hclasses : d.withReturns = d ↔ d.classes.map ClassDecl.withReturns = d.classes.map id := by
    obtain ⟨classes, relations⟩ := d
    simp [ClassDiagram.withReturns]
  rw [hclasses, List.map_inj_left]
  exact forall₂_congr fun c _ => decl_withReturns_eq_self c

/-- An accepted text says the same with carriage returns, but for those it then has in its
stereotypes. A rejected one is rejected alike, unless it stops at a bare colon. -/
theorem lineEndings_read {s : List Char} (hr : '\r' ∉ s) :
    (∀ d, ofText (String.ofList s) = .ok d →
      ofText (String.ofList (returned s)) = .ok d.withReturns) ∧
    (¬ BareColon s → ofText (String.ofList (returned s)) =
      (ofText (String.ofList s)).map ClassDiagram.withReturns) ∧
    (BareColon s → ofText (String.ofList s) = .error (.unexpected ":")) ∧
    ∀ d : ClassDiagram, d.withReturns = d ↔
      ∀ c ∈ d.classes, ∀ text ∈ c.stereotype, '\n' ∉ text.toList := by
  refine ⟨fun d hd => ?_, ofText_returned hr, ofText_of_bareColon, withReturns_eq_self⟩
  have hb : ¬ BareColon s := by
    intro hb
    rw [ofText_of_bareColon hb] at hd
    cases hd
  rw [ofText_returned hr hb, hd]
  rfl

def plainRelation : List Char := "A --> B : b\n".toList

def colonRelation : List Char := "A --> B :\n".toList

theorem colonRelation_bare : BareColon colonRelation := by
  have hends : ends? (skipGap colonRelation) =
      some (("A", (.association, false), "B"), " :\n".toList) := rfl
  exact .here hends rfl rfl

theorem lineEndings_read_relation :
    ('\r' ∉ plainRelation ∧ ofText (String.ofList plainRelation) =
        .ok ⟨[], [⟨"A", "B", .association, some "b"⟩]⟩ ∧
      ofText (String.ofList "A --> B : b\r\n".toList) =
        .ok ⟨[], [⟨"A", "B", .association, some "b"⟩]⟩) ∧
    ('\r' ∉ colonRelation ∧ BareColon colonRelation ∧
      ofText (String.ofList colonRelation) = .error (.unexpected ":")) := by
  have hreturn : '\r' ∉ plainRelation := by decide
  have hreturn' : '\r' ∉ colonRelation := by decide
  have hitem : item? plainRelation =
      some (.related ⟨"A", "B", .association, some "b"⟩, []) := rfl
  have hread : ofText (String.ofList plainRelation) =
      .ok ⟨[], [⟨"A", "B", .association, some "b"⟩]⟩ := by
    rw [ofText_ofList, items_of_item? hitem, items_nil]
    rfl
  obtain ⟨haccepted, -⟩ := lineEndings_read hreturn
  obtain ⟨-, -, hbare, -⟩ := lineEndings_read hreturn'
  exact ⟨⟨hreturn, hread, haccepted _ hread⟩, hreturn', colonRelation_bare, hbare colonRelation_bare⟩

/-- With a carriage return the text is accepted, without it is not. -/
theorem colon_accepted_with_return :
    ofText (String.ofList "A --> B :\n".toList) = .error (.unexpected ":") ∧
      ofText (String.ofList "A --> B :\r\n".toList) =
        .ok ⟨[], [⟨"A", "B", .association, none⟩]⟩ := by
  have hends : ends? (skipGap colonRelation) =
      some (("A", (.association, false), "B"), " :\n".toList) := rfl
  have hitem : item? "A --> B :\r\n".toList =
      some (.related ⟨"A", "B", .association, none⟩, []) := item?_returned_colon hends rfl rfl
  refine ⟨ofText_of_bareColon colonRelation_bare, ?_⟩
  rw [ofText_ofList, items_of_item? hitem, items_nil]
  rfl

end ClassDiagram

end DotDiagram
