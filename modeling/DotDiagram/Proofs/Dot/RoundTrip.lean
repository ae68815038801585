import DotDiagram.Proofs.Dot.Clause
import DotDiagram.Workspace.Basic

/-! What is written is read back. Each line of a document but the first is a clause; the
lines spell the tokens of the clauses, and the clauses fall back into the containers. -/

namespace DotDiagram.Dot

/-- The text of lines that all end. -/
def unlines (lines : List String) : List Char := lines.flatMap fun line => line.toList ++ ['\n']

theorem toList_intercalate_concat (lines : List String) (last : String) :
    (String.intercalate "\n" (lines ++ [last])).toList = unlines lines ++ last.toList := by
  induction lines with
  | nil => simp [unlines]
  | cons line lines ih =>
    have hne : lines ++ [last] ≠ [] := by simp
    rw [List.cons_append, String.intercalate_cons_of_ne_nil hne, String.toList_append, ih]
    simp [unlines]

def SpellsClause (kind : GraphKind) (line : String) (clause : Clause) : Prop :=
  Spells line.toList (clause.tokens kind)

def SpellsClauses (kind : GraphKind) (lines : List String) (clauses : List Clause) : Prop :=
  Spells (unlines lines) (clauses.flatMap (Clause.tokens kind))

variable {kind : GraphKind}

theorem SpellsClauses.nil : SpellsClauses kind [] [] := Spells.nil

theorem SpellsClauses.append {lines lines' : List String} {clauses clauses' : List Clause}
    (h : SpellsClauses kind lines clauses) (h' : SpellsClauses kind lines' clauses') :
    SpellsClauses kind (lines ++ lines') (clauses ++ clauses') := by
  simpa [SpellsClauses, unlines, List.flatMap_append] using Spells.append h h'

theorem SpellsClause.single {line : String} {clause : Clause} (h : SpellsClause kind line clause) :
    SpellsClauses kind [line] [clause] := by
  simpa [SpellsClauses, unlines] using Spells.append h (spells_space (by decide : isSpace '\n' = true))

theorem SpellsClauses.map {α : Type} {f : α → String} {g : α → Clause} {xs : List α}
    (h : ∀ x ∈ xs, SpellsClause kind (f x) (g x)) : SpellsClauses kind (xs.map f) (xs.map g) := by
  induction xs with
  | nil => exact .nil
  | cons x xs ih =>
    exact (h x List.mem_cons_self).single.append (ih fun y hy => h y (List.mem_cons_of_mem x hy))

theorem spells_indentation (depth : Nat) : Spells (indentation depth).toList [] := by
  rw [indentation, String.toList_ofList]
  induction 2 * depth with
  | zero => exact .nil
  | succ n ih =>
    rw [List.replicate_succ]
    exact (spells_space (by decide : isSpace ' ' = true)).append ih

theorem spells_written {value : AttrValue} (h : value.Legible) :
    Spells value.written.toList [value.shown.token] := by
  cases value with
  | markup body => exact spells_markup h
  | text s => exact spells_quoted s
  | integer n => exact spells_quoted _
  | number x => exact spells_quoted _
  | flag b => exact spells_quoted _

theorem spells_attrText {entry : String × AttrValue} (hk : isKey entry.1 = true)
    (hv : entry.2.Legible) :
    Spells (attrText entry).toList [.word entry.1, .sign '=', entry.2.shown.token] := by
  rw [attrText, String.toList_append]
  exact (spells_key hk).append (spells_written hv)

theorem spells_entries {entries : List (String × AttrValue)} (hne : entries ≠ [])
    (h : ∀ entry ∈ entries, isKey entry.1 = true ∧ entry.2.Legible) :
    Spells (String.intercalate ", " (entries.map attrText) ++ "]").toList
      (entryTokens (entries.map fun entry => (entry.1, entry.2.shown))) := by
  induction entries with
  | nil => exact absurd rfl hne
  | cons entry rest ih =>
    obtain ⟨hk, hv⟩ := h entry List.mem_cons_self
    have hentry := spells_attrText hk hv
    cases rest with
    | nil =>
      simpa [entryTokens] using hentry.append (spells_sign (by decide : ']' ∈ signs))
    | cons next rest =>
      have hrest := ih (List.cons_ne_nil _ _) fun e he => h e (List.mem_cons_of_mem _ he)
      have hcomma := (spells_sign (by decide : ',' ∈ signs)).append
        (spells_space (by decide : isSpace ' ' = true))
      simpa [entryTokens] using (hentry.append hcomma).append hrest

theorem spells_attrList {attrs : AttrSet} (h : attrs.Legible) :
    Spells (attrList attrs).toList (attrTokens attrs.shown) := by
  cases he : attrs.toList with
  | nil => simpa [attrList, Keyed.isEmpty, AttrSet.shown, attrTokens, he] using Spells.nil
  | cons entry rest =>
    have hentries := spells_entries (he ▸ List.cons_ne_nil entry rest) h
    have hopen := (spells_space (by decide : isSpace ' ' = true)).append
      (spells_sign (by decide : '[' ∈ signs))
    have hh := hopen.append hentries
    simpa [attrList, Keyed.isEmpty, AttrSet.shown, attrTokens, he] using hh

theorem spells_stop {cs : List Char} {ts : List Token} (depth : Nat) (h : Spells cs ts) {c : Char}
    (hc : c ∈ signs) :
    Spells ((indentation depth).toList ++ cs ++ [c]) (ts ++ [.sign c]) :=
  ((spells_indentation depth).append h).append (spells_sign hc)

theorem spells_attrLine {entry : String × AttrValue} (depth : Nat)
    (h : isKey entry.1 = true ∧ entry.2.Legible) :
    SpellsClause kind (indentation depth ++ attrText entry ++ ";")
      (.attr (entry.1, entry.2.shown)) := by
  have hh := spells_stop depth (spells_attrText h.1 h.2) (by decide : ';' ∈ signs)
  simpa [SpellsClause, Clause.tokens, Clause.group] using hh

theorem spells_nodeLine {node : NodeStatement} (depth : Nat) (h : AttrSet.Legible node.attrs) :
    SpellsClause kind (node.line depth) (.node node.shown) := by
  have hh := spells_stop depth ((spells_quoted node.name).append (spells_attrList h))
    (by decide : ';' ∈ signs)
  simpa [SpellsClause, Clause.tokens, Clause.group, NodeStatement.line, NodeStatement.shown] using hh

theorem spells_edgeLine {edge : EdgeStatement} (depth : Nat) (h : AttrSet.Legible edge.attrs) :
    SpellsClause kind (edge.line kind depth) (.edge edge.shown) := by
  have hspace := spells_space (by decide : isSpace ' ' = true)
  have hlink := (hspace.append (spells_link kind)).append hspace
  have hends := ((spells_quoted edge.source).append hlink).append (spells_quoted edge.target)
  have hh := spells_stop depth (hends.append (spells_attrList h)) (by decide : ';' ∈ signs)
  simpa [SpellsClause, Clause.tokens, Clause.group, EdgeStatement.line, EdgeStatement.shown] using hh

theorem spells_opening (depth : Nat) (name : String) :
    SpellsClause kind (indentation depth ++ "subgraph " ++ quoted name ++ " \x7b") (.opening name) := by
  have hspace := spells_space (by decide : isSpace ' ' = true)
  have hword : Spells ("subgraph" ++ " ").toList [.word "subgraph"] := spells_keyword (by decide)
  have hh := spells_stop depth ((hword.append (spells_quoted name)).append hspace)
    (by decide : '{' ∈ signs)
  simpa [SpellsClause, Clause.tokens, Clause.group] using hh

theorem spells_closing (depth : Nat) :
    SpellsClause kind (indentation depth ++ "\x7d") .closing := by
  have hh := spells_stop depth .nil (by decide : '}' ∈ signs)
  simpa [SpellsClause, Clause.tokens, Clause.group] using hh

mutual

def SubgraphStatement.clauses : SubgraphStatement → List Clause
  | .mk name attrs nodes edges subgraphs =>
    .opening name :: (attrs.toList.map (fun e => .attr (e.1, e.2.shown)) ++
      nodes.map (fun n => .node n.shown) ++ edges.map (fun e => .edge e.shown) ++
      subgraphClauses subgraphs ++ [.closing])

def subgraphClauses : List SubgraphStatement → List Clause
  | [] => []
  | s :: rest => s.clauses ++ subgraphClauses rest

end

/-- The clauses of a document after its first line. -/
def Document.clauses (doc : Document) : List Clause :=
  doc.attrs.toList.map (fun e => .attr (e.1, e.2.shown)) ++ subgraphClauses doc.subgraphs ++
    doc.nodes.map (fun n => .node n.shown) ++ doc.edges.map (fun e => .edge e.shown) ++ [.closing]

theorem spells_attrLines {attrs : AttrSet} (depth : Nat) (h : attrs.Legible) :
    SpellsClauses kind (attrLines depth attrs)
      (attrs.toList.map fun e => .attr (e.1, e.2.shown)) :=
  .map fun entry he => spells_attrLine depth (h entry he)

theorem spells_nodeLines {nodes : List NodeStatement} (depth : Nat)
    (h : ∀ node ∈ nodes, AttrSet.Legible node.attrs) :
    SpellsClauses kind (nodes.map (NodeStatement.line depth)) (nodes.map fun n => .node n.shown) :=
  .map fun node hn => spells_nodeLine depth (h node hn)

theorem spells_edgeLines {edges : List EdgeStatement} (depth : Nat)
    (h : ∀ edge ∈ edges, AttrSet.Legible edge.attrs) :
    SpellsClauses kind (edges.map (EdgeStatement.line kind depth))
      (edges.map fun e => .edge e.shown) :=
  .map fun edge he => spells_edgeLine depth (h edge he)

mutual

theorem spells_subgraph (depth : Nat) : (s : SubgraphStatement) → s.Legible →
    SpellsClauses kind (s.lines kind depth) s.clauses
  | .mk name attrs nodes edges subgraphs, h => by
    rw [SubgraphStatement.Legible] at h
    obtain ⟨hattrs, hnodes, hedges, hsubgraphs⟩ := h
    have hparts := (((spells_attrLines (depth + 1) hattrs).append
      (spells_nodeLines (depth + 1) hnodes)).append
      (spells_edgeLines (depth + 1) hedges)).append
      (spells_subgraphs (depth + 1) subgraphs hsubgraphs)
    rw [SubgraphStatement.lines, SubgraphStatement.clauses]
    exact (spells_opening depth name).single.append (hparts.append (spells_closing depth).single)

theorem spells_subgraphs (depth : Nat) : (ss : List SubgraphStatement) → LegibleSubgraphs ss →
    SpellsClauses kind (subgraphLines kind depth ss) (subgraphClauses ss)
  | [], _ => .nil
  | s :: rest, h => by
    rw [LegibleSubgraphs] at h
    exact (spells_subgraph depth s h.1).append (spells_subgraphs depth rest h.2)

end

section Assembly

variable {α : Type} (name : String) (attrs : ShownAttrs) (nodes : List ShownNode)
  (edges : List ShownEdge) (subgraphs outer : List ShownContainer) (rest : List Clause)

theorem assemble?_attrs (f : α → String × ShownValue) (xs : List α) :
    assemble? (.mk name attrs nodes edges subgraphs) outer (xs.map (fun x => .attr (f x)) ++ rest) =
      assemble? (.mk name (attrs ++ xs.map f) nodes edges subgraphs) outer rest := by
  induction xs generalizing attrs with
  | nil => simp
  | cons x xs ih => simp [assemble?, ShownContainer.addAttr, ih]

theorem assemble?_nodes (f : α → ShownNode) (xs : List α) :
    assemble? (.mk name attrs nodes edges subgraphs) outer (xs.map (fun x => .node (f x)) ++ rest) =
      assemble? (.mk name attrs (nodes ++ xs.map f) edges subgraphs) outer rest := by
  induction xs generalizing nodes with
  | nil => simp
  | cons x xs ih => simp [assemble?, ShownContainer.addNode, ih]

theorem assemble?_edges (f : α → ShownEdge) (xs : List α) :
    assemble? (.mk name attrs nodes edges subgraphs) outer (xs.map (fun x => .edge (f x)) ++ rest) =
      assemble? (.mk name attrs nodes (edges ++ xs.map f) subgraphs) outer rest := by
  induction xs generalizing edges with
  | nil => simp
  | cons x xs ih => simp [assemble?, ShownContainer.addEdge, ih]

end Assembly

mutual

/-- From its opening to its closing brace a subgraph is put together apart from what is
around it. -/
theorem assemble?_subgraph : (s : SubgraphStatement) → ∀ parent outer rest,
    assemble? parent outer (s.clauses ++ rest) =
      assemble? (parent.addSubgraph s.shown) outer rest
  | .mk name attrs nodes edges subgraphs => by
    intro parent outer rest
    rw [SubgraphStatement.clauses, SubgraphStatement.shown]
    simp only [List.cons_append, List.append_assoc, assemble?, ShownContainer.empty]
    rw [assemble?_attrs, assemble?_nodes, assemble?_edges, assemble?_subgraphs subgraphs]
    rfl

theorem assemble?_subgraphs : (ss : List SubgraphStatement) → ∀ name attrs nodes edges done outer rest,
    assemble? (.mk name attrs nodes edges done) outer (subgraphClauses ss ++ rest) =
      assemble? (.mk name attrs nodes edges (done ++ shownSubgraphs ss)) outer rest
  | [] => by
    intro name attrs nodes edges done outer rest
    simp [subgraphClauses, shownSubgraphs]
  | s :: ss => by
    intro name attrs nodes edges done outer rest
    rw [subgraphClauses, shownSubgraphs, List.append_assoc, assemble?_subgraph s,
      ShownContainer.addSubgraph, assemble?_subgraphs ss]
    simp

end

theorem assemble?_document (doc : Document) :
    assemble? (.empty doc.name) [] doc.clauses = some doc.shown.graph := by
  simp only [Document.clauses, List.append_assoc, ShownContainer.empty]
  rw [assemble?_attrs, assemble?_subgraphs, assemble?_nodes, assemble?_edges]
  rfl

theorem keyed_of_mem_entries {attrs : AttrSet} (h : attrs.Legible) :
    ∀ entry ∈ attrs.shown, isKey entry.1 = true := by
  intro entry he
  obtain ⟨e, hm, rfl⟩ := List.mem_map.mp he
  exact (h e hm).1

mutual

theorem keyed_of_mem_clauses : (s : SubgraphStatement) → s.Legible → ∀ c ∈ s.clauses, c.Keyed
  | .mk name attrs nodes edges subgraphs, h => by
    rw [SubgraphStatement.Legible] at h
    obtain ⟨hattrs, hnodes, hedges, hsubgraphs⟩ := h
    intro c hc
    simp only [SubgraphStatement.clauses, List.mem_cons, List.mem_append, List.mem_map,
      List.not_mem_nil, or_false] at hc
    rcases hc with rfl | ((((⟨e, he, rfl⟩ | ⟨n, hn, rfl⟩) | ⟨e, he, rfl⟩) | hc) | rfl)
    · trivial
    · exact (hattrs e he).1
    · exact keyed_of_mem_entries (hnodes n hn)
    · exact keyed_of_mem_entries (hedges e he)
    · exact keyed_of_mem_subgraphClauses subgraphs hsubgraphs c hc
    · trivial

theorem keyed_of_mem_subgraphClauses : (ss : List SubgraphStatement) → LegibleSubgraphs ss →
    ∀ c ∈ subgraphClauses ss, c.Keyed
  | [], _ => fun c hc => absurd hc List.not_mem_nil
  | s :: rest, h => by
    rw [LegibleSubgraphs] at h
    intro c hc
    rcases List.mem_append.mp hc with hc | hc
    · exact keyed_of_mem_clauses s h.1 c hc
    · exact keyed_of_mem_subgraphClauses rest h.2 c hc

end

namespace Document.Legible

variable {doc : Document}

theorem keyed (h : doc.Legible) : ∀ c ∈ doc.clauses, c.Keyed := by
  intro c hc
  simp only [Document.clauses, List.mem_append, List.mem_map, List.mem_singleton] at hc
  rcases hc with (((⟨e, he, rfl⟩ | hc) | ⟨n, hn, rfl⟩) | ⟨e, he, rfl⟩) | rfl
  · exact (h.attrs e he).1
  · exact keyed_of_mem_subgraphClauses doc.subgraphs h.subgraphs c hc
  · exact keyed_of_mem_entries (h.nodes n hn)
  · exact keyed_of_mem_entries (h.edges e he)
  · trivial

/-- The first line spells three tokens, and each other line a clause. -/
theorem spells_text (h : doc.Legible) :
    Spells doc.text.toList ([.word doc.kind.keyword, .text doc.name, .sign '{'] ++
      doc.clauses.flatMap (Clause.tokens doc.kind)) := by
  have hspace := spells_space (by decide : isSpace ' ' = true)
  have hend := spells_space (by decide : isSpace '\n' = true)
  have hword : Spells (doc.kind.keyword ++ " ").toList [.word doc.kind.keyword] :=
    spells_keyword (by cases doc.kind <;> decide)
  have hhead := (((hword.append (spells_quoted doc.name)).append hspace).append
    (spells_sign (by decide : '{' ∈ signs))).append hend
  have hedges : SpellsClauses doc.kind _ _ := spells_edgeLines 1 h.edges
  have hparts := (((spells_attrLines 1 h.attrs).append
    (spells_subgraphs 1 doc.subgraphs h.subgraphs)).append (spells_nodeLines 1 h.nodes)).append hedges
  have hlast := spells_sign (by decide : '}' ∈ signs)
  have hh := hhead.append (Spells.append hparts hlast)
  have ht : doc.text = String.intercalate "\n" (((doc.kind.keyword ++ " " ++ quoted doc.name ++
      " \x7b") :: (attrLines 1 doc.attrs ++ subgraphLines doc.kind 1 doc.subgraphs ++
      doc.nodes.map (NodeStatement.line 1) ++ doc.edges.map (EdgeStatement.line doc.kind 1))) ++
      ["\x7d"]) := rfl
  rw [ht, toList_intercalate_concat]
  simpa [unlines, Document.clauses, Clause.tokens, Clause.group] using hh

theorem tokens?_text (h : doc.Legible) :
    tokens? doc.text.toList = some (.word doc.kind.keyword :: .text doc.name :: .sign '{' ::
      doc.clauses.flatMap (Clause.tokens doc.kind)) := by
  have hh := h.spells_text []
  rw [List.append_nil] at hh
  rw [hh, tokens?]
  simp

theorem read?_text (h : doc.Legible) : read? doc.text = some doc.shown := by
  have hgroups : groups? (.word doc.kind.keyword :: .text doc.name :: .sign '{' ::
      doc.clauses.flatMap (Clause.tokens doc.kind)) =
      some (([.word doc.kind.keyword, .text doc.name], '{') ::
        doc.clauses.map (Clause.group doc.kind)) := by
    have hts : ∀ t ∈ [Token.word doc.kind.keyword, .text doc.name], t.stop? = none := by
      simp [Token.stop?]
    refine (groups?_append hts rfl).trans ?_
    rw [groups?_tokens]
    rfl
  have hkind : graphKind? doc.kind.keyword = some doc.kind := by cases doc.kind <;> rfl
  rw [read?, h.tokens?_text, Option.bind_some, hgroups, Option.bind_some, ofGroups?, hkind,
    Option.bind_some, mapM_clause? h.keyed, Option.bind_some, assemble?_document]
  rfl

end Document.Legible

/-- Every document with identifiers for keys and with balanced markup is read back from
its text, in particular that of a graph. So documents with the same text show the same,
whatever is written in their names and values. -/
theorem document_reads_back :
    (∀ doc : Document, doc.Legible → read? doc.text = some doc.shown) ∧
    (∀ (w : Workspace) (graph : GraphId) (doc : Document), w.document? graph = some doc →
      doc.Legible → (w.dot? graph).bind read? = some doc.shown) ∧
    ∀ doc doc' : Document, doc.Legible → doc'.Legible → doc.text = doc'.text →
      doc.shown = doc'.shown := by
  refine ⟨fun doc h => h.read?_text, ?_, ?_⟩
  · intro w graph doc hdoc h
    rw [Workspace.dot?, hdoc, Option.map_some, Option.bind_some, h.read?_text]
  · intro doc doc' h h' ht
    have hh := h.read?_text
    rw [ht, h'.read?_text] at hh
    exact (Option.some.inj hh).symm

/-- A document whose names and values look like the end of a clause. -/
def misleading : Document where
  kind := .undirected
  name := "g\" \x7b"
  attrs := .ofList [("rankdir", .text "];\n\x7d")]
  subgraphs := [.mk "cluster_\\" .empty [⟨"a\"];", .ofList [("label", .markup "<B>\"</B>")]⟩]
    [⟨"a\"];", "\\\"", .ofList [("weight", .integer 2), ("label", .text "\"]; x")]⟩] []]
  nodes := [⟨"\\\"", .empty⟩]
  edges := []

theorem misleading_reads_back : misleading.Legible ∧ read? misleading.text = some misleading.shown := by
  have h : misleading.Legible := by
    refine ⟨by decide, by decide, by decide, ?_⟩
    simp only [misleading, LegibleSubgraphs, SubgraphStatement.Legible]
    decide
  exact ⟨h, document_reads_back.1 misleading h⟩

end DotDiagram.Dot
