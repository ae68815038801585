import DotDiagram.Proofs.Workspace.Session

/-! The ambient stacks and the entries that are live. Each stack shows the live entries
of its kind, the latest first, and ids grow in the order of entering. Entering and
releasing keep this, in whatever order entries are released. -/

namespace DotDiagram

/-- Whether scopes of these kinds have to close in the reverse order of opening. Graphs
and subgraphs share one order. -/
def Slot.sharesOrder (s t : Slot) : Bool :=
  s == t || (s == .graph && t == .subgraph) || (s == .subgraph && t == .graph)

/-- Whether one of the later entries should have been released before. -/
def Entered.overtaken (e : Entered) (later : List Entered) : Bool :=
  later.any fun f => f.opening.slot.sharesOrder e.opening.slot

namespace Opening

def nodeStyle? : Opening → Option NodeStyle
  | .nodeStyle style => some style
  | _ => none

def edgeStyle? : Opening → Option EdgeStyle
  | .edgeStyle style => some style
  | _ => none

def theme? : Opening → Option Theme
  | .theme t => some t
  | _ => none

def graph? : Opening → Option GraphId
  | .graph id => some id
  | _ => none

def subgraph? : Opening → Option SubgraphId
  | .subgraph id => some id
  | _ => none

variable (o : Opening)

theorem nodeStyle?_eq_none_iff :
    o.nodeStyle? = none ↔ o.slot.sharesOrder .nodeStyle = false := by
  cases o <;> simp [nodeStyle?, slot, Slot.sharesOrder]

theorem edgeStyle?_eq_none_iff :
    o.edgeStyle? = none ↔ o.slot.sharesOrder .edgeStyle = false := by
  cases o <;> simp [edgeStyle?, slot, Slot.sharesOrder]

theorem theme?_eq_none_iff : o.theme? = none ↔ o.slot.sharesOrder .theme = false := by
  cases o <;> simp [theme?, slot, Slot.sharesOrder]

theorem graph?_eq_none_iff :
    o.graph? = none ∧ o.subgraph? = none ↔ o.slot.sharesOrder .graph = false := by
  cases o <;> simp [graph?, subgraph?, slot, Slot.sharesOrder]

theorem subgraph?_eq_none_iff :
    o.subgraph? = none ∧ o.graph? = none ↔ o.slot.sharesOrder .subgraph = false := by
  cases o <;> simp [graph?, subgraph?, slot, Slot.sharesOrder]

end Opening

def Entered.entry? {α : Type} (pick : Opening → Option α) (e : Entered) : Option (Entry α) :=
  (pick e.opening).map fun value => ⟨e.id, value⟩

/-- The live entries of one kind, the latest first. -/
def stackOf {α : Type} (pick : Opening → Option α) (entries : List Entered) : List (Entry α) :=
  (entries.filterMap (Entered.entry? pick)).reverse

structure Ambient.Holds (a : Ambient) (entries : List Entered) : Prop where
  nodeStyles : a.nodeStyles = stackOf Opening.nodeStyle? entries
  edgeStyles : a.edgeStyles = stackOf Opening.edgeStyle? entries
  themes : a.themes = stackOf Opening.theme? entries
  graphs : a.graphs = stackOf Opening.graph? entries
  subgraphs : a.subgraphs = stackOf Opening.subgraph? entries
  ordered : entries.Pairwise fun e f => e.id < f.id
  recent : ∀ e ∈ entries, e.id ≤ a.lastId

section

variable {α β : Type} {pick : Opening → Option α} {other : Opening → Option β}
  {before after entries : List Entered} {e : Entered} {value : α}

theorem stackOf_append :
    stackOf pick (before ++ after) = stackOf pick after ++ stackOf pick before := by
  simp [stackOf]

theorem stackOf_drop (he : pick e.opening = none) :
    stackOf pick (before ++ e :: after) = stackOf pick (before ++ after) := by
  simp [stackOf, Entered.entry?, he]

theorem stackOf_sublist (h : before.Sublist entries) :
    (stackOf pick before).Sublist (stackOf pick entries) :=
  (h.filterMap _).reverse

theorem stackOf_eq_nil_iff : stackOf pick entries = [] ↔ ∀ f ∈ entries, pick f.opening = none := by
  simp [stackOf, Entered.entry?]

theorem mem_stackOf {x : Entry α} :
    x ∈ stackOf pick entries ↔ ∃ f ∈ entries, pick f.opening = some x.value ∧ f.id = x.id := by
  simp only [stackOf, List.mem_reverse, List.mem_filterMap, Entered.entry?, Option.map_eq_some_iff]
  constructor
  · rintro ⟨f, hf, v, hv, rfl⟩
    exact ⟨f, hf, hv, rfl⟩
  · rintro ⟨f, hf, hv, hid⟩
    exact ⟨f, hf, x.value, hv, by rw [hid]⟩

theorem releaseFrom_append {x : Entry α} {top below : List (Entry α)} (h : ∀ y ∈ top, y.id ≠ x.id) :
    releaseFrom x.id (top ++ x :: below) =
      (if top = [] then .inOrder else .outOfOrder, top ++ below) := by
  induction top with
  | nil => simp [releaseFrom]
  | cons y top ih =>
    have hy := h y List.mem_cons_self
    have hh := ih fun z hz => h z (List.mem_cons_of_mem y hz)
    rw [List.cons_append, releaseFrom, if_neg hy, hh]
    by_cases ht : top = [] <;> simp [ht]

/-- Only what was entered after an entry and stands on the same stack is above it. -/
theorem releaseFrom_stackOf (pick : Opening → Option α) (hv : pick e.opening = some value)
    (h : (before ++ e :: after).Pairwise fun e f => e.id < f.id) :
    releaseFrom e.id (stackOf pick (before ++ e :: after)) =
      (if ∀ f ∈ after, pick f.opening = none then .inOrder else .outOfOrder,
        stackOf pick (before ++ after)) := by
  have hs : stackOf pick (before ++ e :: after) =
      stackOf pick after ++ ⟨e.id, value⟩ :: stackOf pick before := by
    simp [stackOf, Entered.entry?, hv]
  have hne : ∀ y ∈ stackOf pick after, y.id ≠ e.id := by
    intro y hy
    obtain ⟨f, hf, _, hid⟩ := mem_stackOf.mp hy
    have hlt := (List.pairwise_cons.mp (List.pairwise_append.mp h).2.1).1 f hf
    omega
  have hr : releaseFrom e.id (stackOf pick after ++ ⟨e.id, value⟩ :: stackOf pick before) =
      (if stackOf pick after = [] then .inOrder else .outOfOrder,
        stackOf pick after ++ stackOf pick before) :=
    releaseFrom_append (x := ⟨e.id, value⟩) hne
  rw [hs, hr, stackOf_append]
  simp only [stackOf_eq_nil_iff]

theorem any_later_iff (he : other e.opening = none)
    (h : (before ++ e :: after).Pairwise fun e f => e.id < f.id) :
    ((stackOf other (before ++ e :: after)).any fun y => e.id < y.id) = true ↔
      ¬ ∀ f ∈ after, other f.opening = none := by
  obtain ⟨_, hafter, hbefore⟩ := List.pairwise_append.mp h
  rw [List.any_eq_true]
  constructor
  · rintro ⟨y, hy, hlt⟩ hall
    obtain ⟨f, hf, hfy, hid⟩ := mem_stackOf.mp hy
    rw [decide_eq_true_eq, ← hid] at hlt
    rcases List.mem_append.mp hf with hf | hf
    · have hle := hbefore f hf e List.mem_cons_self
      omega
    · rcases List.mem_cons.mp hf with rfl | hf
      · omega
      · rw [hall f hf] at hfy
        exact absurd hfy (by simp)
  · intro hall
    obtain ⟨f, hall⟩ := Classical.not_forall.mp hall
    obtain ⟨hf, hne⟩ := Classical.not_imp.mp hall
    obtain ⟨v, hv⟩ := Option.ne_none_iff_exists'.mp hne
    refine ⟨⟨f.id, v⟩, mem_stackOf.mpr ⟨f, ?_, hv, rfl⟩, ?_⟩
    · exact List.mem_append_right _ (List.mem_cons_of_mem e hf)
    · rw [decide_eq_true_eq]
      exact (List.pairwise_cons.mp hafter).1 f hf

/-- What was entered later on the stack of the other kind counts, too. -/
theorem releaseContainer_stackOf (pick : Opening → Option α) (other : Opening → Option β)
    (hv : pick e.opening = some value) (he : other e.opening = none)
    (h : (before ++ e :: after).Pairwise fun e f => e.id < f.id) :
    releaseContainer e.id (stackOf pick (before ++ e :: after))
        (stackOf other (before ++ e :: after)) =
      (if ∀ f ∈ after, pick f.opening = none ∧ other f.opening = none then .inOrder
        else .outOfOrder, stackOf pick (before ++ after)) := by
  have hany := any_later_iff he h
  rw [releaseContainer, releaseFrom_stackOf pick hv h]
  by_cases hs : ∀ f ∈ after, pick f.opening = none
  · by_cases hf : ∀ f ∈ after, other f.opening = none
    · have hall : ∀ f ∈ after, pick f.opening = none ∧ other f.opening = none :=
        fun f hm => ⟨hs f hm, hf f hm⟩
      simp only [hany, if_pos hs, if_neg (Classical.not_not.mpr hf), if_pos hall]
    · have hnot : ¬ ∀ f ∈ after, pick f.opening = none ∧ other f.opening = none :=
        fun hall => hf fun f hm => (hall f hm).2
      simp only [hany, if_pos hs, if_pos hf, if_neg hnot]
  · have hnot : ¬ ∀ f ∈ after, pick f.opening = none ∧ other f.opening = none :=
      fun hall => hs fun f hm => (hall f hm).1
    rw [if_neg hs, if_neg hnot]

end

/-- The fault found when `p` says of the later entries that none of them should have been
released before. -/
theorem fault_eq {e : Entered} {after : List Entered} {p : Entered → Prop} [DecidablePred p]
    (hp : ∀ f, p f ↔ f.opening.slot.sharesOrder e.opening.slot = false) :
    (if ∀ f ∈ after, p f then Release.inOrder else .outOfOrder) =
      if e.overtaken after then .outOfOrder else .inOrder := by
  by_cases ho : e.overtaken after = true
  · have hnot : ¬ ∀ f ∈ after, p f := by
      intro hall
      obtain ⟨f, hf, hs⟩ := List.any_eq_true.mp ho
      rw [(hp f).mp (hall f hf)] at hs
      exact absurd hs Bool.false_ne_true
    rw [if_neg hnot, if_pos ho]
  · have hall : ∀ f ∈ after, p f := by
      intro f hf
      rw [hp f]
      apply Bool.eq_false_iff.mpr
      intro hs
      exact ho (List.any_eq_true.mpr ⟨f, hf, hs⟩)
    rw [if_pos hall, if_neg ho]

def Ambient.enter (a : Ambient) : Opening → Guard × Ambient
  | .nodeStyle style => a.enterNodeStyle style
  | .edgeStyle style => a.enterEdgeStyle style
  | .theme theme => a.enterTheme theme
  | .graph id => a.enterGraph id
  | .subgraph id => a.enterSubgraph id

namespace Ambient.Holds

variable {a : Ambient} {before after entries : List Entered} {e : Entered}

/-- Whatever entry is released, exactly that one goes, and it is out of order just when
it was overtaken. -/
theorem release (h : a.Holds (before ++ e :: after)) :
    (a.release e.guard).1 = (if e.overtaken after then .outOfOrder else .inOrder) ∧
      (a.release e.guard).2.Holds (before ++ after) := by
  have hsub : (before ++ after).Sublist (before ++ e :: after) :=
    (List.sublist_cons_self e after).append_left before
  have hord := h.ordered.sublist hsub
  have hrec : ∀ f ∈ before ++ after, f.id ≤ a.lastId := fun f hf => h.recent f (hsub.subset hf)
  obtain ⟨id, opening⟩ := e
  cases opening with
  | nodeStyle style =>
    have hr := releaseFrom_stackOf Opening.nodeStyle? rfl h.ordered
    simp only [Ambient.release, Entered.guard, Opening.slot, h.nodeStyles, hr]
    refine ⟨fault_eq fun f => f.opening.nodeStyle?_eq_none_iff, ?_⟩
    exact ⟨rfl, h.edgeStyles.trans (stackOf_drop rfl), h.themes.trans (stackOf_drop rfl),
      h.graphs.trans (stackOf_drop rfl), h.subgraphs.trans (stackOf_drop rfl), hord, hrec⟩
  | edgeStyle style =>
    have hr := releaseFrom_stackOf Opening.edgeStyle? rfl h.ordered
    simp only [Ambient.release, Entered.guard, Opening.slot, h.edgeStyles, hr]
    refine ⟨fault_eq fun f => f.opening.edgeStyle?_eq_none_iff, ?_⟩
    exact ⟨h.nodeStyles.trans (stackOf_drop rfl), rfl, h.themes.trans (stackOf_drop rfl),
      h.graphs.trans (stackOf_drop rfl), h.subgraphs.trans (stackOf_drop rfl), hord, hrec⟩
  | theme theme =>
    have hr := releaseFrom_stackOf Opening.theme? rfl h.ordered
    simp only [Ambient.release, Entered.guard, Opening.slot, h.themes, hr]
    refine ⟨fault_eq fun f => f.opening.theme?_eq_none_iff, ?_⟩
    exact ⟨h.nodeStyles.trans (stackOf_drop rfl), h.edgeStyles.trans (stackOf_drop rfl), rfl,
      h.graphs.trans (stackOf_drop rfl), h.subgraphs.trans (stackOf_drop rfl), hord, hrec⟩
  | graph graph =>
    have hr := releaseContainer_stackOf Opening.graph? Opening.subgraph? rfl rfl h.ordered
    simp only [Ambient.release, Entered.guard, Opening.slot, h.graphs, h.subgraphs, hr]
    refine ⟨fault_eq fun f => f.opening.graph?_eq_none_iff, ?_⟩
    exact ⟨h.nodeStyles.trans (stackOf_drop rfl), h.edgeStyles.trans (stackOf_drop rfl),
      h.themes.trans (stackOf_drop rfl), rfl, stackOf_drop rfl, hord, hrec⟩
  | subgraph subgraph =>
    have hr := releaseContainer_stackOf Opening.subgraph? Opening.graph? rfl rfl h.ordered
    simp only [Ambient.release, Entered.guard, Opening.slot, h.graphs, h.subgraphs, hr]
    refine ⟨fault_eq fun f => f.opening.subgraph?_eq_none_iff, ?_⟩
    exact ⟨h.nodeStyles.trans (stackOf_drop rfl), h.edgeStyles.trans (stackOf_drop rfl),
      h.themes.trans (stackOf_drop rfl), stackOf_drop rfl, rfl, hord, hrec⟩

theorem enter (h : a.Holds entries) (opening : Opening) :
    (a.enter opening).2.Holds (entries ++ [⟨a.lastId + 1, opening⟩]) := by
  have hord : List.Pairwise (fun e f : Entered => e.id < f.id)
      (entries ++ [⟨a.lastId + 1, opening⟩]) := by
    refine List.pairwise_append.mpr ⟨h.ordered, List.pairwise_singleton _ _, ?_⟩
    intro e he f hf
    have hle := h.recent e he
    rw [List.mem_singleton.mp hf]
    exact Nat.lt_succ_of_le hle
  have hrec : ∀ e ∈ entries ++ [(⟨a.lastId + 1, opening⟩ : Entered)], e.id ≤ a.lastId + 1 := by
    intro e he
    rcases List.mem_append.mp he with he | he
    · exact Nat.le_succ_of_le (h.recent e he)
    · exact Nat.le_of_eq (congrArg Entered.id (List.mem_singleton.mp he))
  obtain ⟨h1, h2, h3, h4, h5, -, -⟩ := h
  cases opening <;>
    refine ⟨?_, ?_, ?_, ?_, ?_, hord, hrec⟩ <;>
    simp [Ambient.enter, Ambient.enterNodeStyle, Ambient.enterEdgeStyle, Ambient.enterTheme,
      Ambient.enterGraph, Ambient.enterSubgraph, stackOf, Entered.entry?, Opening.nodeStyle?,
      Opening.edgeStyle?, Opening.theme?, Opening.graph?, Opening.subgraph?, h1, h2, h3, h4, h5]

/-- The live entries determine all that is to be seen. -/
theorem eq_of_same {b : Ambient} (ha : a.Holds entries) (hb : b.Holds entries) :
    b = { a with lastId := b.lastId } := by
  cases a
  cases b
  simp only [Ambient.mk.injEq, true_and]
  exact ⟨hb.nodeStyles.trans ha.nodeStyles.symm, hb.edgeStyles.trans ha.edgeStyles.symm,
    hb.themes.trans ha.themes.symm, hb.graphs.trans ha.graphs.symm,
    hb.subgraphs.trans ha.subgraphs.symm⟩

end Ambient.Holds

end DotDiagram
