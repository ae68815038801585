import DotDiagram.Proofs.Workspace.Stacks

/-! Opening and dropping scopes in a workspace. A container stands on the stacks right
after its theme. When it is dropped both go, whatever was opened since. -/

namespace DotDiagram

/-- What is held once the opening succeeds. Ids are drawn one after another. -/
def Opening.held (w : Workspace) (o : Opening) : Held :=
  match o.themeOf w with
  | none => ⟨⟨w.ambient.lastId + 1, o⟩, none⟩
  | some t => ⟨⟨w.ambient.lastId + 2, o⟩, some ⟨w.ambient.lastId + 1, .theme t⟩⟩

/-- The panic of a scope that is dropped while `later` are live. -/
def Held.fault (held : Held) (later : List Entered) : Option Slot :=
  if held.own.overtaken later then some held.own.opening.slot
  else if held.theme.any fun t => t.overtaken later then some .theme
  else none

theorem Held.fault_nil (held : Held) : held.fault [] = none := by
  simp [Held.fault, Entered.overtaken]

namespace Workspace

def opened (w : Workspace) (o : Opening) : Ambient :=
  match o.themeOf w with
  | none => (w.ambient.enter o).2
  | some t => ((w.ambient.enter (.theme t)).2.enter o).2

variable {w : Workspace} {before after entries : List Entered} {e : Entered} {held : Held}

theorem opened_holds (h : w.ambient.Holds entries) (o : Opening) :
    (w.opened o).Holds (entries ++ (o.held w).entries) := by
  cases ht : o.themeOf w with
  | none =>
    simp only [opened, Opening.held, ht, Held.entries, Option.toList_none, List.nil_append]
    exact h.enter o
  | some t =>
    have hid : (w.ambient.enter (.theme t)).2.lastId = w.ambient.lastId + 1 := rfl
    have hh := (h.enter (.theme t)).enter o
    rw [hid, List.append_assoc] at hh
    simp only [opened, Opening.held, ht, Held.entries, Option.toList_some]
    exact hh

theorem graphs_opened_length (w : Workspace) (o : Opening) :
    (w.opened o).graphs.length =
      if o.slot = .graph then w.ambient.graphs.length + 1 else w.ambient.graphs.length := by
  cases ht : o.themeOf w <;> cases o <;> simp only [opened, ht] <;> rfl

theorem enterSubgraph_eq (w : Workspace) (id : SubgraphId) :
    w.enterSubgraph id =
      (((Opening.subgraph id).held w).scope, { w with ambient := w.opened (.subgraph id) }) := by
  cases ht : (Opening.subgraph id).themeOf w with
  | none =>
    have ht' : (w.subgraph? id).bind Subgraph.theme = none := ht
    simp only [enterSubgraph, ht', enterThemeOf, opened, Opening.held, ht]
    rfl
  | some t =>
    have ht' : (w.subgraph? id).bind Subgraph.theme = some t := ht
    simp only [enterSubgraph, ht', enterThemeOf, opened, Opening.held, ht]
    rfl

theorem enterGraph_eq_of_none (id : GraphId) (h : w.ambient.graph? = none) :
    w.enterGraph id =
      (.ok ((Opening.graph id).held w).scope, { w with ambient := w.opened (.graph id) }) := by
  cases ht : (Opening.graph id).themeOf w with
  | none =>
    have ht' : (w.graph? id).bind Graph.theme = none := ht
    simp only [enterGraph, h, ht', enterThemeOf, opened, Opening.held, ht]
    rfl
  | some t =>
    have ht' : (w.graph? id).bind Graph.theme = some t := ht
    simp only [enterGraph, h, ht', enterThemeOf, opened, Opening.held, ht]
    rfl

/-- A second graph is refused, and nothing changes. -/
theorem enterGraph_eq_of_some {outer : GraphId} (id : GraphId)
    (h : w.ambient.graph? = some outer) :
    w.enterGraph id = (.error (.nestedGraph (((w.graph? outer).map Graph.name).getD "")
      (((w.graph? id).map Graph.name).getD "")), w) := by
  simp only [enterGraph, h]

theorem enter_eq (o : Opening) (h : o.slot = .graph → w.ambient.graph? = none) :
    w.enter o = (.ok (o.held w).scope, { w with ambient := w.opened o }) := by
  cases o with
  | nodeStyle style => rfl
  | edgeStyle style => rfl
  | theme theme => rfl
  | graph id => exact enterGraph_eq_of_none id (h rfl)
  | subgraph id => simp only [enter, enterSubgraph_eq]

/-- Only graphs are ever refused, while one is open. -/
theorem enter_error {o : Opening} {err : Error} {w' : Workspace}
    (h : w.enter o = (.error err, w')) : o.slot = .graph ∧ w.ambient.graph? ≠ none ∧ w' = w := by
  by_cases hg : o.slot = .graph → w.ambient.graph? = none
  · rw [enter_eq o hg] at h
    simp at h
  · obtain ⟨hs, hn⟩ := Classical.not_imp.mp hg
    refine ⟨hs, hn, ?_⟩
    cases o with
    | graph id =>
      obtain ⟨outer, ho⟩ := Option.ne_none_iff_exists'.mp hn
      simp only [enter, enterGraph_eq_of_some id ho, Prod.mk.injEq] at h
      exact h.2.symm
    | nodeStyle _ | edgeStyle _ | theme _ | subgraph _ => cases hs

theorem release_guard (h : w.ambient.Holds (before ++ e :: after)) :
    (w.release e.guard).1 = (if e.overtaken after then some e.opening.slot else none) ∧
      (w.release e.guard).2.ambient.Holds (before ++ after) := by
  obtain ⟨hr, hh⟩ := h.release
  refine ⟨?_, hh⟩
  simp only [release, hr]
  by_cases ho : e.overtaken after = true
  · rw [if_pos ho, if_pos ho, if_pos rfl]
    rfl
  · rw [if_neg ho, if_neg ho, if_neg (by decide)]

theorem leave_scope (h : w.ambient.Holds (before ++ held.entries ++ after))
    (ht : ∀ t ∈ held.theme, t.opening.slot = .theme) :
    (w.leave held.scope).1 = held.fault after ∧
      (w.leave held.scope).2.ambient.Holds (before ++ after) := by
  obtain ⟨own, theme⟩ := held
  cases theme with
  | none =>
    have ho : w.ambient.Holds (before ++ own :: after) := by
      simpa [Held.entries] using h
    simpa [leave, Held.scope, Held.fault] using release_guard ho
  | some t =>
    have ho : w.ambient.Holds ((before ++ [t]) ++ own :: after) := by
      simpa [Held.entries] using h
    obtain ⟨hown, hleft⟩ := release_guard ho
    rw [List.append_assoc] at hleft
    obtain ⟨htheme, hrest⟩ := release_guard hleft
    refine ⟨?_, hrest⟩
    simp only [leave, Held.scope, Option.map_some, hown, htheme, Held.fault, ht t rfl]
    by_cases hov : own.overtaken after = true <;> simp [hov]

theorem leave_last (h : w.ambient.Holds (entries ++ held.entries))
    (ht : ∀ t ∈ held.theme, t.opening.slot = .theme) :
    (w.leave held.scope).1 = none ∧ (w.leave held.scope).2.ambient.Holds entries := by
  have hh : w.ambient.Holds (entries ++ held.entries ++ []) := by rwa [List.append_nil]
  have hl := leave_scope hh ht
  rw [held.fault_nil, List.append_nil] at hl
  exact hl

end Workspace

end DotDiagram
