import DotDiagram.Keyed

/-! Looking up what was written. -/

namespace DotDiagram

theorem findEntry_writeEntry {α : Type} (key name : String) (value : α)
    (entries : List (String × α)) :
    findEntry name (writeEntry key value entries) =
      if name = key then some value else findEntry name entries := by
  induction entries with
  | nil => simp [writeEntry, findEntry, eq_comm]
  | cons e rest ih =>
    obtain ⟨k, v⟩ := e
    by_cases hk : k = key
    · by_cases hn : name = key
      · simp [writeEntry, findEntry, hk, hn]
      · have hkn : ¬ key = name := fun h => hn h.symm
        simp [writeEntry, findEntry, hk, hn, hkn]
    · rw [writeEntry, if_neg hk, findEntry, findEntry, ih]
      by_cases hkn : k = name
      · have hn : ¬ name = key := fun h => hk (hkn.trans h)
        rw [if_pos hkn, if_pos hkn, if_neg hn]
      · rw [if_neg hkn, if_neg hkn]

theorem isSome_findEntry {α : Type} (key : String) (entries : List (String × α)) :
    (findEntry key entries).isSome = true ↔ key ∈ keysOf entries := by
  induction entries with
  | nil => simp [findEntry, keysOf]
  | cons e rest ih =>
    obtain ⟨k, v⟩ := e
    simp only [keysOf, List.map_cons, List.mem_cons] at ih ⊢
    by_cases hk : k = key
    · simp [findEntry, hk]
    · have hk' : ¬ key = k := fun h => hk h.symm
      rw [findEntry, if_neg hk, ih]
      simp [hk']

theorem findEntry_eraseEntry {α : Type} {entries : List (String × α)}
    (h : (keysOf entries).Nodup) (key name : String) :
    findEntry name (eraseEntry key entries) =
      if name = key then none else findEntry name entries := by
  induction entries with
  | nil => simp [eraseEntry, findEntry]
  | cons e rest ih =>
    obtain ⟨k, v⟩ := e
    obtain ⟨hfresh, hrest⟩ := List.nodup_cons.mp h
    by_cases hk : k = key
    · subst hk
      rw [eraseEntry, if_pos rfl]
      by_cases hn : name = k
      · subst hn
        rw [if_pos rfl, ← Option.not_isSome_iff_eq_none, isSome_findEntry]
        exact hfresh
      · rw [if_neg hn, findEntry, if_neg (Ne.symm hn)]
    · rw [eraseEntry, if_neg hk, findEntry, findEntry, ih hrest]
      by_cases hkn : k = name
      · have hn : ¬ name = key := fun h => hk (hkn.trans h)
        rw [if_pos hkn, if_pos hkn, if_neg hn]
      · rw [if_neg hkn, if_neg hkn]

theorem mem_of_findEntry {α : Type} {key : String} {value : α} {entries : List (String × α)}
    (h : findEntry key entries = some value) : (key, value) ∈ entries := by
  induction entries with
  | nil => cases h
  | cons e rest ih =>
    obtain ⟨k, v⟩ := e
    by_cases hk : k = key
    · rw [findEntry, if_pos hk] at h
      cases h
      exact hk ▸ List.mem_cons_self
    · rw [findEntry, if_neg hk] at h
      exact List.mem_cons_of_mem _ (ih h)

theorem findEntry_eq_some_iff {α : Type} {key : String} {value : α} {entries : List (String × α)}
    (h : (keysOf entries).Nodup) :
    findEntry key entries = some value ↔ (key, value) ∈ entries := by
  refine ⟨mem_of_findEntry, fun hmem => ?_⟩
  induction entries with
  | nil => cases hmem
  | cons e rest ih =>
    obtain ⟨hfresh, hrest⟩ := List.nodup_cons.mp h
    rcases List.mem_cons.mp hmem with rfl | hmem
    · rw [findEntry, if_pos rfl]
    · have hne : e.1 ≠ key := fun heq => hfresh (heq ▸ List.mem_map_of_mem hmem)
      rw [findEntry, if_neg hne, ih hrest hmem]

/-- The value of a new name goes to the end, and that of an old one to its place. -/
theorem map_snd_writeEntry {α : Type} (key : String) (value : α) (entries : List (String × α)) :
    (writeEntry key value entries).map Prod.snd =
      if key ∈ keysOf entries then
        (entries.map Prod.snd).set ((keysOf entries).idxOf key) value
      else entries.map Prod.snd ++ [value] := by
  induction entries with
  | nil => simp [writeEntry, keysOf]
  | cons e rest ih =>
    obtain ⟨k, v⟩ := e
    simp only [keysOf, List.map_cons, List.mem_cons] at ih ⊢
    by_cases hk : k = key
    · simp [writeEntry, hk]
    · have hk' : ¬ key = k := fun h => hk h.symm
      have hne : (k == key) = false := beq_false_of_ne hk
      rw [writeEntry, if_neg hk, List.map_cons, ih]
      by_cases hr : key ∈ rest.map Prod.fst <;> simp [hr, hk', hne, List.idxOf_cons]

namespace Keyed

variable {α : Type}

theorem get?_insert (m : Keyed α) (key name : String) (value : α) :
    (m.insert key value).get? name = if name = key then some value else m.get? name :=
  findEntry_writeEntry key name value m.toList

theorem get?_erase (m : Keyed α) (key name : String) :
    (m.erase key).get? name = if name = key then none else m.get? name :=
  findEntry_eraseEntry m.nodup key name

theorem get?_eq_some_iff {m : Keyed α} {key : String} {value : α} :
    m.get? key = some value ↔ (key, value) ∈ m.toList :=
  findEntry_eq_some_iff m.nodup

theorem isSome_get? (m : Keyed α) (key : String) : (m.get? key).isSome = true ↔ key ∈ m.keys :=
  isSome_findEntry key m.toList

theorem mem_keys_iff_exists {m : Keyed α} {key : String} :
    key ∈ m.keys ↔ ∃ value, m.get? key = some value := by
  rw [← isSome_get?, Option.isSome_iff_exists]

/-- In a map whose names can be read off its values, what a name stands for reads as it. -/
theorem mem_values_of_get? {m : Keyed α} {f : α → String} (hf : m.keys = m.values.map f)
    {key : String} {value : α} (h : m.get? key = some value) :
    value ∈ m.values ∧ f value = key := by
  have hm := mem_of_findEntry h
  have hpairs : m.toList.map Prod.fst = m.toList.map (f ∘ Prod.snd) := by
    simpa [keys, keysOf, values] using hf
  exact ⟨List.mem_map_of_mem hm, (List.map_inj_left.mp hpairs _ hm).symm⟩

theorem values_insert (m : Keyed α) (key : String) (value : α) :
    (m.insert key value).values =
      if key ∈ m.keys then m.values.set (m.keys.idxOf key) value else m.values ++ [value] :=
  map_snd_writeEntry key value m.toList

end Keyed

end DotDiagram
