import DotDiagram.Proofs.Dot.Reader

/-! Clauses as tokens. The tokens of clauses written one after another fall back into
the same clauses, since only the last token of each is a sign that ends a clause. -/

namespace DotDiagram

def ShownValue.token (value : ShownValue) : Dot.Token :=
  if value.markup then .markup value.text else .text value.text

namespace Dot

@[simp]
theorem ShownValue.value?_token (value : ShownValue) : value.token.value? = some value := by
  obtain ⟨text, markup⟩ := value
  cases markup <;> rfl

def entryTokens : ShownAttrs → List Token
  | [] => [.sign ']']
  | [(key, value)] => [.word key, .sign '=', value.token, .sign ']']
  | (key, value) :: entry :: rest =>
    .word key :: .sign '=' :: value.token :: .sign ',' :: entryTokens (entry :: rest)

def attrTokens : ShownAttrs → List Token
  | [] => []
  | attrs => .sign '[' :: entryTokens attrs

namespace Clause

def group (kind : GraphKind) : Clause → List Token × Char
  | .attr (key, value) => ([.word key, .sign '=', value.token], ';')
  | .node n => (.text n.name :: attrTokens n.attrs, ';')
  | .edge e => (.text e.source :: .link kind :: .text e.target :: attrTokens e.attrs, ';')
  | .opening name => ([.word "subgraph", .text name], '{')
  | .closing => ([], '}')

def tokens (kind : GraphKind) (clause : Clause) : List Token :=
  (clause.group kind).1 ++ [.sign (clause.group kind).2]

def Keyed : Clause → Prop
  | .attr entry => isKey entry.1 = true
  | .node n => ∀ entry ∈ n.attrs, isKey entry.1 = true
  | .edge e => ∀ entry ∈ e.attrs, isKey entry.1 = true
  | .opening _ | .closing => True

end Clause

theorem entries?_entryTokens {attrs : ShownAttrs} (hne : attrs ≠ [])
    (hk : ∀ entry ∈ attrs, isKey entry.1 = true) : entries? (entryTokens attrs) = some attrs := by
  induction attrs with
  | nil => exact absurd rfl hne
  | cons entry rest ih =>
    obtain ⟨key, value⟩ := entry
    have hkey : isKey key = true := hk _ List.mem_cons_self
    cases rest with
    | nil => simp [entryTokens, entries?, hkey]
    | cons entry rest =>
      have hrest := ih (List.cons_ne_nil _ _) fun e he => hk e (List.mem_cons_of_mem _ he)
      simp [entryTokens, entries?, hkey, hrest]

theorem attrs?_attrTokens {attrs : ShownAttrs} (hk : ∀ entry ∈ attrs, isKey entry.1 = true) :
    attrs? (attrTokens attrs) = some attrs := by
  cases attrs with
  | nil => rfl
  | cons entry rest => exact entries?_entryTokens (List.cons_ne_nil _ _) hk

/-- A node's tokens are not taken for an edge's. -/
theorem attrTokens_ne_link (attrs : ShownAttrs) (kind : GraphKind) (rest : List Token) :
    attrTokens attrs ≠ .link kind :: rest := by
  cases attrs <;> simp [attrTokens]

theorem clause?_group {kind : GraphKind} {clause : Clause} (hk : clause.Keyed) :
    clause? kind (clause.group kind) = some clause := by
  cases clause with
  | attr entry =>
    have hkey : isKey entry.1 = true := hk
    simp [Clause.group, clause?, hkey]
  | node node =>
    obtain ⟨name, attrs⟩ := node
    have hattrs := attrs?_attrTokens hk
    have hl := attrTokens_ne_link attrs
    unfold Clause.group clause?
    split <;> simp_all
  | edge edge =>
    have hattrs := attrs?_attrTokens hk
    simp [Clause.group, clause?, hattrs]
  | opening name => rfl
  | closing => rfl

theorem stop?_token (value : ShownValue) : value.token.stop? = none := by
  obtain ⟨text, markup⟩ := value
  cases markup <;> rfl

theorem stop?_of_mem_entryTokens {attrs : ShownAttrs} {t : Token} (ht : t ∈ entryTokens attrs) :
    t.stop? = none := by
  induction attrs with
  | nil =>
    rw [List.mem_singleton.mp ht]
    rfl
  | cons entry rest ih =>
    obtain ⟨key, value⟩ := entry
    cases rest with
    | nil =>
      simp only [entryTokens, List.mem_cons, List.not_mem_nil, or_false] at ht
      rcases ht with rfl | rfl | rfl | rfl
      · rfl
      · rfl
      · exact stop?_token value
      · rfl
    | cons entry rest =>
      simp only [entryTokens, List.mem_cons] at ht ih
      rcases ht with rfl | rfl | rfl | rfl | ht
      · rfl
      · rfl
      · exact stop?_token value
      · rfl
      · exact ih ht

theorem stop?_of_mem_attrTokens {attrs : ShownAttrs} {t : Token} (ht : t ∈ attrTokens attrs) :
    t.stop? = none := by
  cases attrs with
  | nil => exact absurd ht List.not_mem_nil
  | cons entry rest =>
    rcases List.mem_cons.mp ht with rfl | ht
    · rfl
    · exact stop?_of_mem_entryTokens ht

theorem stop?_of_mem_group {kind : GraphKind} {clause : Clause} {t : Token}
    (ht : t ∈ (clause.group kind).1) : t.stop? = none := by
  cases clause with
  | attr entry =>
    simp only [Clause.group, List.mem_cons, List.not_mem_nil, or_false] at ht
    rcases ht with rfl | rfl | rfl
    · rfl
    · rfl
    · exact stop?_token entry.2
  | node node =>
    rcases List.mem_cons.mp ht with rfl | ht
    · rfl
    · exact stop?_of_mem_attrTokens ht
  | edge edge =>
    simp only [Clause.group, List.mem_cons] at ht
    rcases ht with rfl | rfl | rfl | ht
    · rfl
    · rfl
    · rfl
    · exact stop?_of_mem_attrTokens ht
  | opening name =>
    simp only [Clause.group, List.mem_cons, List.not_mem_nil, or_false] at ht
    rcases ht with rfl | rfl <;> rfl
  | closing => exact absurd ht List.not_mem_nil

theorem groups?_append {ts rest : List Token} {c : Char}
    (hts : ∀ t ∈ ts, t.stop? = none) (hc : (Token.sign c).stop? = some c) :
    groups? (ts ++ .sign c :: rest) = (groups? rest).map ((ts, c) :: ·) := by
  induction ts with
  | nil => simp [groups?, hc]
  | cons t ts ih =>
    have ht := hts t List.mem_cons_self
    have hh := ih fun u hu => hts u (List.mem_cons_of_mem t hu)
    rw [List.cons_append, groups?, ht, hh]
    cases groups? rest <;> rfl

theorem groups?_tokens (kind : GraphKind) (clauses : List Clause) :
    groups? (clauses.flatMap (Clause.tokens kind)) = some (clauses.map (Clause.group kind)) := by
  induction clauses with
  | nil => rfl
  | cons clause rest ih =>
    have hc : (Token.sign (clause.group kind).2).stop? = some (clause.group kind).2 := by
      cases clause <;> rfl
    have hts : ∀ t ∈ (clause.group kind).1, t.stop? = none := fun t ht => stop?_of_mem_group ht
    rw [List.flatMap_cons, Clause.tokens, List.append_assoc, List.singleton_append,
      groups?_append hts hc, ih]
    rfl

theorem mapM_clause? {kind : GraphKind} {clauses : List Clause} (hk : ∀ c ∈ clauses, c.Keyed) :
    (clauses.map (Clause.group kind)).mapM (clause? kind) = some clauses := by
  induction clauses with
  | nil => rfl
  | cons clause rest ih =>
    have hc : clause? kind (clause.group kind) = some clause :=
      clause?_group (hk clause List.mem_cons_self)
    have hrest := ih fun c hc => hk c (List.mem_cons_of_mem _ hc)
    simp [hc, hrest]

end Dot

end DotDiagram
