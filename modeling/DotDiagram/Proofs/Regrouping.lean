import DotDiagram.Proofs.Layers

/-! Regrouping layers. Writing one set of attributes over another is associative, and the
empty set does nothing; so layers may be merged with their neighbours before they are
resolved, or a merged one taken apart again. -/

namespace DotDiagram

namespace Keyed

variable {α : Type}

/-- A name takes its value from the right and its place from the left. -/
theorem merge_assoc (m n p : Keyed α) : m.merge (n.merge p) = (m.merge n).merge p :=
  m.merge_insertAll n p.toList

theorem merge_empty (m : Keyed α) : m.merge empty = m := rfl

theorem empty_merge (m : Keyed α) : empty.merge m = m := by
  apply eq_of_get?
  · rw [keys_merge]
    exact eraseDups_eq_self m.nodup
  · intro key
    rw [get?_merge]
    exact Option.or_none

theorem merge_self (m : Keyed α) : m.merge m = m := by
  apply eq_of_get?
  · have hgone : m.keys.removeAll m.keys = [] := by
      simp [List.removeAll]
    have hnodup : m.keys.Nodup := m.nodup
    rw [keys_merge, List.eraseDups_append, hgone, eraseDups_eq_self hnodup]
    exact List.append_nil _
  · intro key
    rw [get?_merge]
    exact Option.or_self

end Keyed

namespace Style

variable {kind : ElementKind}

/-- Styles written over each other, the first one lowest. -/
def mergeAll (styles : List (Style kind)) : Style kind := styles.foldl merge empty

theorem merge_assoc (a b c : Style kind) : a.merge (b.merge c) = (a.merge b).merge c :=
  congrArg Style.mk (Keyed.merge_assoc a.attrs b.attrs c.attrs)

theorem empty_merge (a : Style kind) : empty.merge a = a :=
  congrArg Style.mk a.attrs.empty_merge

theorem foldl_merge (a : Style kind) (styles : List (Style kind)) :
    styles.foldl merge a = a.merge (mergeAll styles) := by
  induction styles generalizing a with
  | nil => rfl
  | cons b rest ih =>
    rw [mergeAll, List.foldl_cons, List.foldl_cons, ih, ih, empty_merge, merge_assoc]

theorem mergeAll_append (lower upper : List (Style kind)) :
    mergeAll (lower ++ upper) = (mergeAll lower).merge (mergeAll upper) := by
  rw [← foldl_merge, mergeAll, List.foldl_append]
  rfl

theorem mergeAll_cons (a : Style kind) (upper : List (Style kind)) :
    mergeAll (a :: upper) = a.merge (mergeAll upper) := by
  rw [← foldl_merge, mergeAll, List.foldl_cons, empty_merge]

/-- Two neighbours are merged, or a style gives way to those it was merged from. -/
inductive Regrouped : List (Style kind) → List (Style kind) → Prop where
  | merged (lower : List (Style kind)) (a b : Style kind) (upper : List (Style kind)) :
      Regrouped (lower ++ a :: b :: upper) (lower ++ a.merge b :: upper)
  | split (lower styles upper : List (Style kind)) :
      Regrouped (lower ++ mergeAll styles :: upper) (lower ++ styles ++ upper)

theorem Regrouped.mergeAll_eq {styles styles' : List (Style kind)} (h : Regrouped styles styles') :
    mergeAll styles' = mergeAll styles := by
  cases h with
  | merged lower a b upper =>
    rw [mergeAll_append, mergeAll_append, mergeAll_cons, mergeAll_cons, mergeAll_cons,
      merge_assoc a b]
  | split lower styles upper =>
    rw [mergeAll_append, mergeAll_append, mergeAll_append, mergeAll_cons, merge_assoc]

end Style

namespace Layers

variable {kind : ElementKind}

/-- The layers from the lowest one up, the direct attributes taken as a style. -/
def stack (layers : Layers kind) : List (Style kind) :=
  layers.theme.toList ++ layers.ambient ++ layers.explicit ++ [⟨layers.direct⟩]

theorem resolve_eq_mergeAll (layers : Layers kind) :
    layers.resolve = (Style.mergeAll layers.stack).attrs := by
  have hattrs (styles : List (Style kind)) (a : Style kind) :
      (styles.foldl Style.merge a).attrs =
        styles.foldl (fun acc style => acc.merge style.attrs) a.attrs := by
    induction styles generalizing a with
    | nil => rfl
    | cons b rest ih => exact ih (a.merge b)
  rw [stack, Style.mergeAll, List.foldl_append, List.foldl_cons, List.foldl_nil, Style.merge,
    hattrs]
  rfl

/-- Two neighbours may be of different kinds, such as the theme and the lowest ambient style,
or the topmost explicit style and the direct attributes. -/
theorem layering_monoid :
    (∀ a b c : AttrSet, a.merge (b.merge c) = (a.merge b).merge c) ∧
      (∀ a : AttrSet, Keyed.empty.merge a = a ∧ a.merge .empty = a ∧ a.merge a = a) ∧
      ∀ layers layers' : Layers kind, Style.Regrouped layers.stack layers'.stack →
        layers'.resolve = layers.resolve := by
  refine ⟨Keyed.merge_assoc, fun a => ⟨a.empty_merge, a.merge_empty, a.merge_self⟩, ?_⟩
  intro layers layers' h
  rw [resolve_eq_mergeAll, resolve_eq_mergeAll, h.mergeAll_eq]

/-- Each layer overwrites something beneath it. -/
def motley : Layers .node :=
  ⟨some (.ofList [("shape", .text "box"), ("color", .text "red")]),
    [.ofList [("color", .text "blue"), ("penwidth", .integer 2)]],
    [.ofList [("style", .text "bold"), ("shape", .text "oval")]],
    .ofList [("penwidth", .integer 3), ("style", .text "dashed")]⟩

/-- The theme and the ambient style are one. -/
def blended : Layers .node :=
  ⟨none,
    [.merge (.ofList [("shape", .text "box"), ("color", .text "red")])
      (.ofList [("color", .text "blue"), ("penwidth", .integer 2)])],
    motley.explicit, motley.direct⟩

theorem layering_monoid_motley :
    Style.Regrouped motley.stack blended.stack ∧ blended.resolve = motley.resolve ∧
      motley.resolve.toList = [("shape", .text "oval"), ("color", .text "blue"),
        ("penwidth", .integer 3), ("style", .text "dashed")] := by
  have hmerged : Style.Regrouped motley.stack blended.stack := .merged [] _ _ _
  exact ⟨hmerged, layering_monoid.2.2 motley blended hmerged, rfl⟩

end Layers

end DotDiagram
