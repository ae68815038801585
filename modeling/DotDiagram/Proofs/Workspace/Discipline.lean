import DotDiagram.Proofs.Workspace.Constructions

/-! Scope discipline. In every session the stacks hold just what is live; scopes may be
dropped in any order, and a panic tells of each one that is dropped too early. Scopes
that are closed in the reverse order of opening leave no trace but the ids they used. -/

namespace DotDiagram

theorem Held.ext_of_scope {held held' : Held} (hs : held.scope = held'.scope)
    (ho : held.own.opening = held'.own.opening)
    (ht : held.theme.map Entered.opening = held'.theme.map Entered.opening) : held = held' := by
  obtain ⟨⟨id, o⟩, theme⟩ := held
  obtain ⟨⟨id', o'⟩, theme'⟩ := held'
  simp only [Held.scope, Entered.guard, Scope.mk.injEq, Guard.mk.injEq] at hs ho
  obtain ⟨⟨-, rfl⟩, hg⟩ := hs
  subst ho
  cases theme with
  | none =>
    cases theme' with
    | none => rfl
    | some _ => cases ht
  | some t =>
    cases theme' with
    | none => cases ht
    | some t' =>
      obtain ⟨i, p⟩ := t
      obtain ⟨i', p'⟩ := t'
      simp only [Option.map_some, Option.some.injEq, Entered.guard, Guard.mk.injEq] at hg ht
      rw [hg.2, ht]

theorem Opening.held_own (w : Workspace) (o : Opening) : (o.held w).own.opening = o := by
  cases ht : o.themeOf w <;> simp [Opening.held, ht]

theorem Opening.map_held_theme (w : Workspace) (o : Opening) :
    (o.held w).theme.map Entered.opening = (o.themeOf w).map .theme := by
  cases ht : o.themeOf w <;> simp [Opening.held, ht]

namespace Session

variable {s t : Session}

/-- The session after an opening that nothing refuses. -/
def opened (s : Session) (o : Opening) : Session :=
  { s with
    workspace := { s.workspace with ambient := s.workspace.opened o }
    held := s.held ++ [o.held s.workspace] }

theorem opens_opened {o : Opening} (known : o.Known s.workspace)
    (hg : o.slot = .graph → s.workspace.ambient.graph? = none) : s.Opens o (s.opened o) := by
  exact ⟨known, s.workspace.enter_eq o hg, o.held_own s.workspace, o.map_held_theme s.workspace⟩

theorem Opens.eq_opened {o : Opening} (h : s.Opens o t) :
    t = s.opened o ∧ (o.slot = .graph → s.workspace.ambient.graph? = none) := by
  obtain ⟨known, entered, own, theme⟩ := h
  have hg : o.slot = .graph → s.workspace.ambient.graph? = none := by
    intro hs
    cases o with
    | graph id =>
      cases ho : s.workspace.ambient.graph? with
      | none => rfl
      | some outer =>
        rw [Workspace.enter, Workspace.enterGraph_eq_of_some id ho] at entered
        simp at entered
    | nodeStyle _ | edgeStyle _ | theme _ | subgraph _ => cases hs
  rw [Workspace.enter_eq o hg, Prod.mk.injEq, Except.ok.injEq] at entered
  obtain ⟨hscope, rfl⟩ := entered
  have hh := Held.ext_of_scope hscope ((o.held_own _).trans own.symm)
    ((o.map_held_theme _).trans theme.symm)
  rw [← hh]
  exact ⟨rfl, hg⟩

/-- What holds of every session, whatever was opened and dropped in it. -/
structure Sound (s : Session) : Prop where
  ambient : s.workspace.ambient.Holds s.entries
  themes : ∀ held ∈ s.held, ∀ t ∈ held.theme, t.opening.slot = .theme
  oneGraph : s.workspace.ambient.graphs.length ≤ 1

theorem sound_start : start.Sound :=
  ⟨⟨rfl, rfl, rfl, rfl, rfl, .nil, nofun⟩, nofun, Nat.zero_le 1⟩

theorem entries_split {before after : List Held} {held : Held}
    (h : s.held = before ++ held :: after) :
    s.entries = before.flatMap Held.entries ++ held.entries ++ after.flatMap Held.entries := by
  simp [entries, h]

namespace Sound

theorem operation (h : s.Sound) (op : Operation) : (s.perform op).Sound := by
  have hs := Workspace.perform_holds h.ambient op
  refine ⟨hs, h.themes, ?_⟩
  have hg : (s.perform op).workspace.ambient.graphs = s.workspace.ambient.graphs :=
    hs.graphs.trans h.ambient.graphs.symm
  rw [hg]
  exact h.oneGraph

theorem opening (h : s.Sound) {o : Opening} (ho : s.Opens o t) : t.Sound := by
  obtain ⟨rfl, hg⟩ := ho.eq_opened
  have hs := Workspace.opened_holds h.ambient o
  refine ⟨?_, ?_, ?_⟩
  · simpa [opened, entries] using hs
  · intro held hm
    rcases List.mem_append.mp hm with hm | hm
    · exact h.themes held hm
    · rw [List.mem_singleton.mp hm]
      exact o.held_theme s.workspace
  · have hl : (s.opened o).workspace.ambient.graphs.length = _ :=
      s.workspace.graphs_opened_length o
    rw [hl]
    by_cases hsl : o.slot = .graph
    · have hnil : s.workspace.ambient.graphs = [] := by
        simpa [Ambient.graph?] using hg hsl
      exact Nat.le_of_eq (by rw [if_pos hsl, hnil, List.length_nil])
    · rw [if_neg hsl]
      exact h.oneGraph

/-- Both entries of a scope go, also while a panic is unwound or raised. -/
theorem dropScope (h : s.Sound) {before after : List Held} {held : Held}
    (hs : s.held = before ++ held :: after) (unwinding : Bool) :
    (s.workspace.dropScope unwinding held.scope).1 =
        (if unwinding then none else held.fault (after.flatMap Held.entries)) ∧
      (s.workspace.dropScope unwinding held.scope).2.ambient.Holds
        ((before ++ after).flatMap Held.entries) := by
  have hh := h.ambient
  rw [entries_split hs] at hh
  have ht := h.themes held (hs ▸ List.mem_append_right before List.mem_cons_self)
  obtain ⟨hf, hleft⟩ := Workspace.leave_scope hh ht
  rw [Workspace.dropScope_eq_leave, hf, List.flatMap_append]
  exact ⟨rfl, hleft⟩

theorem dropped (h : s.Sound) {before after : List Held} {held : Held}
    (hs : s.held = before ++ held :: after) (unwinding : Bool) :
    (s.drop unwinding held (before ++ after)).Sound := by
  have hd := (h.dropScope hs unwinding).2
  refine ⟨hd, ?_, ?_⟩
  · intro other hm
    apply h.themes other
    rw [hs]
    exact ((List.sublist_cons_self held after).append_left before).subset hm
  · have hlive : ((before ++ after).flatMap Held.entries).Sublist s.entries := by
      rw [entries_split hs, List.flatMap_append]
      exact (List.sublist_append_left _ _).append_right _
    have hle : (stackOf Opening.graph? _).length ≤ (stackOf Opening.graph? _).length :=
      (stackOf_sublist hlive).length_le
    rw [← hd.graphs, ← h.ambient.graphs] at hle
    exact Nat.le_trans hle h.oneGraph

theorem step (h : s.Sound) (hst : Step s t) : t.Sound := by
  cases hst with
  | operation op known => exact h.operation op
  | opened ho => exact h.opening ho
  | refused known he =>
    rw [(Workspace.enter_error he).2.2]
    exact h
  | dropped unwinding hs => exact h.dropped hs unwinding

theorem of_reachable (hs : Reachable s) : s.Sound := by
  induction hs with
  | refl => exact sound_start
  | tail _ hst ih => exact ih.step hst

theorem block (h : s.Sound) (hb : Block s t) :
    t.Sound ∧ t.held = s.held ∧ t.panics = s.panics := by
  induction hb with
  | refl s => exact ⟨h, rfl, rfl⟩
  | operation op hb known ih =>
    obtain ⟨ht, hheld, hpanics⟩ := ih h
    exact ⟨ht.operation op, hheld, hpanics⟩
  | refused hb known he ih =>
    rw [(Workspace.enter_error he).2.2]
    exact ih h
  | @scope s t u v opening outer held unwinding hb opens inner last ih₁ ih₂ =>
    obtain ⟨ht, hheld, hpanics⟩ := ih₁ h
    have hu := ht.opening opens
    obtain ⟨hv, hvheld, hvpanics⟩ := ih₂ hu
    obtain ⟨rfl, -⟩ := opens.eq_opened
    have hlast : outer ++ [held] = t.held ++ [opening.held t.workspace] :=
      last.symm.trans hvheld
    obtain ⟨rfl, hnil⟩ := List.append_inj' hlast rfl
    have hd := hv.dropped last unwinding
    have hp := (hv.dropScope last unwinding).1
    rw [List.flatMap_nil, Held.fault_nil, ite_self] at hp
    rw [List.append_nil] at hd
    refine ⟨hd, hheld, ?_⟩
    simp only [drop, hp]
    rw [Option.toList_none, List.append_nil]
    exact hvpanics.trans hpanics

end Sound

/-- How scopes behave. Entries and scopes stand in the order of opening, so what comes
after one of them was opened later and is still live. -/
structure Disciplined (s : Session) : Prop where
  ambient : s.workspace.ambient.Holds s.entries
  /-- A guard releases its own entry. It panics if it was overtaken, and then, too, its
  entry is gone. -/
  guard : ∀ (before after : List Entered) (e : Entered), s.entries = before ++ e :: after →
    ∀ unwinding : Bool,
      (s.workspace.ambient.release e.guard).1 ≠ .missing ∧
      (s.workspace.dropGuard unwinding e.guard).1 =
        (if unwinding = false ∧ e.overtaken after then some e.opening.slot else none) ∧
      (s.workspace.dropGuard unwinding e.guard).2.ambient.Holds (before ++ after)
  /-- A scope releases its container and its theme, whichever of them panics. -/
  scope : ∀ (before after : List Held) (held : Held), s.held = before ++ held :: after →
    ∀ unwinding : Bool,
      (s.workspace.dropScope unwinding held.scope).1 =
        (if unwinding then none else held.fault (after.flatMap Held.entries)) ∧
      (s.workspace.dropScope unwinding held.scope).2.ambient.Holds
        ((before ++ after).flatMap Held.entries)
  oneGraph : s.workspace.ambient.graphs.length ≤ 1
  nested : ∀ outer inner : GraphId, s.workspace.ambient.graph? = some outer →
    s.workspace.enterGraph inner =
      (.error (.nestedGraph (((s.workspace.graph? outer).map Graph.name).getD "")
        (((s.workspace.graph? inner).map Graph.name).getD "")), s.workspace)
  /-- Nothing else is refused. -/
  opening : ∀ o : Opening, o.Known s.workspace →
    (o.slot = .graph → s.workspace.ambient.graph? = none) → s.Opens o (s.opened o)

theorem Sound.disciplined (h : s.Sound) : s.Disciplined where
  ambient := h.ambient
  guard before after e hs unwinding := by
    have hh := h.ambient
    rw [hs] at hh
    obtain ⟨hr, -⟩ := hh.release
    obtain ⟨hf, hleft⟩ := Workspace.release_guard hh
    refine ⟨?_, ?_, hleft⟩
    · rw [hr]
      by_cases ho : e.overtaken after = true <;> simp [ho]
    · simp only [Workspace.dropGuard, hf]
      cases unwinding <;> simp
  scope before after held hs unwinding := h.dropScope hs unwinding
  oneGraph := h.oneGraph
  nested _ inner ho := Workspace.enterGraph_eq_of_some inner ho
  opening _ known hg := opens_opened known hg

/-- The last part is about scopes that are closed in the reverse order of opening:
nothing panics, and all that can be seen of the stacks is as it was. -/
theorem scopes_disciplined (hs : Reachable s) :
    s.Disciplined ∧ ∀ t, Block s t →
      t.held = s.held ∧ t.panics = s.panics ∧
        t.workspace.ambient = { s.workspace.ambient with lastId := t.workspace.ambient.lastId } := by
  have h := Sound.of_reachable hs
  refine ⟨h.disciplined, ?_⟩
  intro t hb
  obtain ⟨ht, hheld, hpanics⟩ := h.block hb
  have hh := ht.ambient
  rw [entries, hheld] at hh
  exact ⟨hheld, hpanics, h.ambient.eq_of_same hh⟩

/-- A graph with a theme, not yet open. -/
def sketched : Session :=
  start.perform (.graph { GraphSpec.plain "g" with theme := some (.custom .forest) })

/-- The graph is open, and a subgraph within it. -/
def layered : Session :=
  ((sketched.opened (.graph ⟨0⟩)).perform (.subgraph (.named "s"))).opened (.subgraph ⟨0⟩)

/-- An edge style was in force for a while. -/
def restyled : Session :=
  (layered.opened (.edgeStyle .empty)).drop false
    ((Opening.edgeStyle .empty).held layered.workspace) layered.held

theorem layered_reachable : Reachable layered := by
  have hg : Step start sketched := .operation (.graph _) trivial
  have hk : (Opening.graph ⟨0⟩).Known sketched.workspace := Nat.zero_lt_one
  have ho := Step.opened (opens_opened hk fun _ => rfl)
  have hs : Step (sketched.opened (.graph ⟨0⟩))
    ((sketched.opened (.graph ⟨0⟩)).perform (.subgraph (.named "s"))) := .operation _ trivial
  have hk' : (Opening.subgraph ⟨0⟩).Known
    ((sketched.opened (.graph ⟨0⟩)).perform (.subgraph (.named "s"))).workspace := Nat.zero_lt_one
  exact (((Relation.ReflTransGen.single hg).tail ho).tail hs).tail
    (.opened (opens_opened hk' fun h => by cases h))

theorem layered_disciplined :
    Reachable layered ∧ layered.Disciplined ∧ Block layered restyled ∧
      restyled.held = layered.held ∧ restyled.panics = [] := by
  obtain ⟨hd, hb⟩ := scopes_disciplined layered_reachable
  have hk : (Opening.edgeStyle .empty).Known layered.workspace := trivial
  have hblock : Block layered restyled :=
    .scope false (.refl _) (opens_opened hk fun h => by cases h) (.refl _) rfl
  obtain ⟨hheld, hpanics, -⟩ := hb restyled hblock
  exact ⟨layered_reachable, hd, hblock, hheld, hpanics⟩

/-- A graph that is dropped before its subgraph panics. -/
example : (layered.drop false ((Opening.graph ⟨0⟩).held sketched.workspace)
    [(Opening.subgraph ⟨0⟩).held (sketched.opened (.graph ⟨0⟩)).workspace]).panics = [.graph] := by
  decide

end Session

end DotDiagram
