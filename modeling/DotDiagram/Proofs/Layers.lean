import DotDiagram.AttrSet
import DotDiagram.Proofs.Keyed

/-! Layers of styles. What is resolved takes the value of a name from the topmost layer
that has it, and its place from the bottommost. -/

namespace DotDiagram

section

variable {α : Type} [BEq α] [LawfulBEq α]

theorem eraseDups_eq_self {xs : List α} (h : xs.Nodup) : xs.eraseDups = xs := by
  induction xs with
  | nil => rfl
  | cons x xs ih =>
    obtain ⟨hx, hxs⟩ := List.nodup_cons.mp h
    have hkept : xs.filter (fun y => !y == x) = xs := by
      rw [List.filter_eq_self]
      intro y hy
      rw [Bool.not_eq_true', beq_eq_false_iff_ne]
      exact fun hyx => hx (hyx ▸ hy)
    rw [List.eraseDups_cons, hkept, ih hxs]

theorem eraseDups_append_of_mem {xs : List α} {x : α} (h : x ∈ xs) (ys : List α) :
    (xs ++ x :: ys).eraseDups = (xs ++ ys).eraseDups := by
  have hgone : (x :: ys).removeAll xs = ys.removeAll xs := by
    simp [List.removeAll, h]
  rw [List.eraseDups_append, List.eraseDups_append, hgone]

theorem eraseDups_concat (xs : List α) (x : α) :
    (xs ++ [x]).eraseDups = if x ∈ xs then xs.eraseDups else xs.eraseDups ++ [x] := by
  split
  · next h => rw [eraseDups_append_of_mem h, List.append_nil]
  · next h =>
    have hkept : [x].removeAll xs = [x] := by
      simp [List.removeAll, h]
    rw [List.eraseDups_append, hkept]
    rfl

end

theorem findEntry_eq_none_iff {α : Type} {key : String} {entries : List (String × α)} :
    findEntry key entries = none ↔ key ∉ keysOf entries := by
  rw [← isSome_findEntry, Option.not_isSome_iff_eq_none]

namespace Keyed

variable {α : Type}

theorem get?_merge (m n : Keyed α) (key : String) :
    (m.merge n).get? key = (n.get? key).or (m.get? key) := by
  obtain ⟨entries, hn⟩ := n
  simp only [merge, get?]
  induction entries generalizing m with
  | nil => rfl
  | cons e rest ih =>
    obtain ⟨k, v⟩ := e
    obtain ⟨hk, hrest⟩ := List.nodup_cons.mp hn
    have hstep : findEntry key ((m.insert k v).insertAll rest).toList =
        (findEntry key rest).or ((m.insert k v).get? key) := ih (m.insert k v) hrest
    rw [get?_insert] at hstep
    refine hstep.trans ?_
    by_cases hkey : key = k
    · have hnone : findEntry key rest = none := findEntry_eq_none_iff.mpr (hkey ▸ hk)
      rw [hnone, if_pos hkey, findEntry, if_pos hkey.symm]
      rfl
    · have hkey' : ¬ k = key := fun h => hkey h.symm
      rw [if_neg hkey, findEntry, if_neg hkey', get?]

theorem keys_insertAll (m : Keyed α) (entries : List (String × α)) :
    (m.insertAll entries).keys = (m.keys ++ keysOf entries).eraseDups := by
  induction entries generalizing m with
  | nil =>
    rw [keysOf, List.map_nil, List.append_nil]
    exact (eraseDups_eq_self m.nodup).symm
  | cons e rest ih =>
    obtain ⟨k, v⟩ := e
    have hstep : (m.insertAll ((k, v) :: rest)).keys =
        ((m.insert k v).keys ++ keysOf rest).eraseDups := ih (m.insert k v)
    rw [hstep, keys_insert]
    by_cases hk : k ∈ m.keys
    · rw [if_pos hk]
      exact (eraseDups_append_of_mem hk _).symm
    · rw [if_neg hk, List.append_assoc]
      rfl

/-- Maps written over each other, the first one lowest. -/
def overlay (maps : List (Keyed α)) : Keyed α := maps.foldl merge empty

theorem overlay_eq_ofList (maps : List (Keyed α)) :
    overlay maps = ofList (maps.flatMap toList) := by
  rw [overlay, ofList, insertAll, List.foldl_flatMap]
  rfl

theorem keys_overlay (maps : List (Keyed α)) :
    (overlay maps).keys = (maps.flatMap keys).eraseDups := by
  rw [overlay_eq_ofList, ofList, keys_insertAll, keysOf, List.map_flatMap]
  rfl

/-- The last map that has a name decides its value. -/
theorem get?_foldl_merge (maps : List (Keyed α)) (m : Keyed α) (key : String) :
    (maps.foldl merge m).get? key =
      (maps.filterMap fun n => n.get? key).getLast?.or (m.get? key) := by
  induction maps generalizing m with
  | nil => rfl
  | cons n rest ih =>
    rw [List.foldl_cons, ih, get?_merge, List.filterMap_cons]
    cases hn : n.get? key with
    | none => rfl
    | some v =>
      rw [List.getLast?_cons]
      cases (rest.filterMap fun n => n.get? key).getLast? <;> rfl

theorem get?_overlay (maps : List (Keyed α)) (key : String) :
    (overlay maps).get? key = (maps.filterMap fun n => n.get? key).getLast? := by
  rw [overlay, get?_foldl_merge]
  exact Option.or_none

theorem eq_of_get? {m n : Keyed α} (hk : m.keys = n.keys) (hg : ∀ key, m.get? key = n.get? key) :
    m = n := by
  obtain ⟨ms, hm⟩ := m
  obtain ⟨ns, hn⟩ := n
  apply ext
  simp only [keys, get?] at hk hg ⊢
  induction ms generalizing ns with
  | nil => exact (List.map_eq_nil_iff.mp hk.symm).symm
  | cons e rest ih =>
    obtain ⟨k, v⟩ := e
    cases ns with
    | nil => cases hk
    | cons e' rest' =>
      obtain ⟨k', v'⟩ := e'
      obtain ⟨hkey, hkeys⟩ := List.cons_eq_cons.mp hk
      obtain rfl : k = k' := hkey
      obtain ⟨hfresh, hm'⟩ := List.nodup_cons.mp hm
      obtain ⟨hfresh', hn'⟩ := List.nodup_cons.mp hn
      obtain rfl : v = v' := by simpa [findEntry] using hg k
      have hrest : rest = rest' := by
        refine ih hm' rest' hn' hkeys fun key => ?_
        by_cases hkey : k = key
        · rw [← hkey, findEntry_eq_none_iff.mpr hfresh, findEntry_eq_none_iff.mpr hfresh']
        · simpa [findEntry, hkey] using hg key
      rw [hrest]

theorem keys_merge (m n : Keyed α) : (m.merge n).keys = (m.keys ++ n.keys).eraseDups :=
  m.keys_insertAll n.toList

theorem merge_insert (m n : Keyed α) (key : String) (value : α) :
    m.merge (n.insert key value) = (m.merge n).insert key value := by
  apply eq_of_get?
  · rw [keys_merge, keys_insert, keys_insert, keys_merge]
    by_cases hk : key ∈ n.keys
    · rw [if_pos hk, if_pos (List.mem_eraseDups.mpr (List.mem_append_right _ hk))]
    · rw [if_neg hk, ← List.append_assoc, eraseDups_concat]
      simp only [List.mem_eraseDups]
  · intro name
    rw [get?_merge, get?_insert, get?_insert, get?_merge]
    split <;> rfl

theorem merge_insertAll (m n : Keyed α) (entries : List (String × α)) :
    m.merge (n.insertAll entries) = (m.merge n).insertAll entries := by
  induction entries generalizing n with
  | nil => rfl
  | cons e rest ih =>
    refine (ih (n.insert e.1 e.2)).trans ?_
    rw [merge_insert]
    rfl

end Keyed

namespace Layers

variable {kind : ElementKind}

/-- All that is written, in the order of writing. -/
def sources (layers : Layers kind) : List AttrSet :=
  layers.theme.toList.map Style.attrs ++ layers.ambient.map Style.attrs ++
    layers.explicit.map Style.attrs ++ [layers.direct]

theorem resolve_eq_overlay (layers : Layers kind) :
    layers.resolve = Keyed.overlay layers.sources := by
  simp only [resolve, sources, Keyed.overlay, List.foldl_append, List.foldl_map, List.foldl_cons,
    List.foldl_nil]

/-- What the last of the styles that have a name gives it. -/
def last? (styles : List (Style kind)) (key : String) : Option AttrValue :=
  (styles.filterMap fun style => style.get? key).getLast?

/-- The law that the attributes of an element obey: where the value of a name comes from,
and where the name stands. -/
structure Governs (layers : Layers kind) (attrs : AttrSet) : Prop where
  value : ∀ key, attrs.get? key =
    ((layers.direct.get? key).or (last? layers.explicit key)).or
      ((last? layers.ambient key).or (layers.theme.bind fun style => style.get? key))
  once : attrs.keys.Nodup
  order : attrs.keys = (layers.sources.flatMap Keyed.keys).eraseDups

theorem governs_resolve (layers : Layers kind) : layers.Governs layers.resolve := by
  rw [resolve_eq_overlay]
  refine ⟨fun key => ?_, Keyed.nodup _, Keyed.keys_overlay _⟩
  have hstyles (styles : List (Style kind)) :
      ((styles.map Style.attrs).filterMap fun attrs => attrs.get? key).getLast? =
        last? styles key := by
    rw [List.filterMap_map]
    rfl
  have htheme : last? layers.theme.toList key = layers.theme.bind fun style => style.get? key := by
    cases layers.theme with
    | none => rfl
    | some style => cases hs : style.get? key <;> simp [last?, hs]
  have hdirect : (([layers.direct] : List AttrSet).filterMap fun attrs => attrs.get? key).getLast? =
      layers.direct.get? key := by
    cases hd : layers.direct.get? key <;> simp [hd]
  rw [Keyed.get?_overlay, sources]
  simp only [List.filterMap_append, List.getLast?_append, hstyles, htheme, hdirect,
    Option.or_assoc]

/-- The law leaves nothing open. -/
theorem governs_iff {layers : Layers kind} {attrs : AttrSet} :
    layers.Governs attrs ↔ attrs = layers.resolve := by
  constructor
  · intro h
    have hr := layers.governs_resolve
    exact Keyed.eq_of_get? (h.order.trans hr.order.symm)
      fun key => (h.value key).trans (hr.value key).symm
  · rintro rfl
    exact layers.governs_resolve

end Layers

end DotDiagram
