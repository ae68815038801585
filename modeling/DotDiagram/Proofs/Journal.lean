import Mathlib.Data.List.Basic
import DotDiagram.Proofs.Equality

/-! Journals. All that was ever written to a map and erased from it, in order, tells what
the map holds: a name stands for what was written last unless it was erased since, and the
names stand in the order in which they were first written since they were last erased. -/

namespace DotDiagram

namespace Keyed

variable {α : Type}

inductive Event (α : Type) where
  | write (key : String) (value : α)
  | erasure (key : String)

namespace Event

def key : Event α → String
  | .write key _ | .erasure key => key

def perform (m : Keyed α) : Event α → Keyed α
  | .write key value => m.insert key value
  | .erasure key => m.erase key

def ofPairs (entries : List (String × α)) : List (Event α) :=
  entries.map fun e => .write e.1 e.2

theorem foldl_ofPairs (m : Keyed α) (entries : List (String × α)) :
    (ofPairs entries).foldl perform m = m.insertAll entries := by
  rw [ofPairs, List.foldl_map]
  rfl

end Event

/-- What can be done to a map. -/
inductive Change (α : Type) where
  | insert (key : String) (value : α)
  | exchange (key : String) (value : α)
  | take (key : String)
  | merge (other : Keyed α)
  | insertAll (entries : List (String × α))

namespace Change

/-- What is handed back, and the map afterwards. -/
def perform (m : Keyed α) : Change α → Option α × Keyed α
  | .insert key value => (none, m.insert key value)
  | .exchange key value => m.exchange key value
  | .take key => m.take key
  | .merge other => (none, m.merge other)
  | .insertAll entries => (none, m.insertAll entries)

def events : Change α → List (Event α)
  | .insert key value | .exchange key value => [.write key value]
  | .take key => [.erasure key]
  | .merge other => Event.ofPairs other.toList
  | .insertAll entries => Event.ofPairs entries

/-- The map after all the changes, from an empty one. -/
def run (changes : List (Change α)) : Keyed α :=
  changes.foldl (fun m change => (change.perform m).2) empty

def journal (changes : List (Change α)) : List (Event α) := changes.flatMap events

theorem foldl_events (m : Keyed α) (change : Change α) :
    change.events.foldl Event.perform m = (change.perform m).2 := by
  cases change with
  | insert key value => rfl
  | exchange key value => exact (congrArg Prod.snd (m.exchange_eq key value)).symm
  | take key => exact (congrArg Prod.snd (m.take_eq key)).symm
  | merge other => exact Event.foldl_ofPairs m other.toList
  | insertAll entries => exact Event.foldl_ofPairs m entries

theorem run_eq_foldl (changes : List (Change α)) :
    run changes = (journal changes).foldl Event.perform empty := by
  rw [run, journal, List.foldl_flatMap]
  simp only [foldl_events]

end Change

/-- The last that happened to the name is that the value was written. -/
def Stands (events : List (Event α)) (key : String) (value : α) : Prop :=
  ∃ before after, events = before ++ .write key value :: after ∧ ∀ e ∈ after, e.key ≠ key

/-- The event in this place is the first writing of the name since it was last erased. -/
def FirstWritten (events : List (Event α)) (key : String) (place : Nat) : Prop :=
  ∃ before value after, events = before ++ .write key value :: after ∧ before.length = place ∧
    (∀ v, ¬ Stands before key v) ∧ ∀ e ∈ after, e ≠ .erasure key

section

variable {events : List (Event α)} {key name : String} {value v : α} {place : Nat}

theorem concat_eq_split {β : Type} {xs before after : List β} {x y : β} :
    xs ++ [y] = before ++ x :: after ↔
      (before = xs ∧ x = y ∧ after = []) ∨
        ∃ rest, after = rest ++ [y] ∧ xs = before ++ x :: rest := by
  constructor
  · intro h
    rcases List.eq_nil_or_concat' after with rfl | ⟨rest, last, rfl⟩
    · obtain ⟨rfl, hlast⟩ := List.append_inj' h rfl
      exact .inl ⟨rfl, (List.singleton_inj.mp hlast).symm, rfl⟩
    · rw [← List.cons_append, ← List.append_assoc] at h
      obtain ⟨hxs, hlast⟩ := List.append_inj' h rfl
      rw [List.singleton_inj.mp hlast]
      exact .inr ⟨rest, rfl, hxs⟩
  · rintro (⟨rfl, rfl, rfl⟩ | ⟨rest, rfl, rfl⟩)
    · rfl
    · rw [List.append_assoc, List.cons_append]

theorem forall_mem_concat {β : Type} {p : β → Prop} {xs : List β} {y : β} :
    (∀ x ∈ xs ++ [y], p x) ↔ (∀ x ∈ xs, p x) ∧ p y := by
  rw [List.forall_mem_append, List.forall_mem_singleton]

theorem not_stands_nil : ¬ Stands ([] : List (Event α)) key value := by
  rintro ⟨before, after, h, -⟩
  simp at h

theorem not_firstWritten_nil : ¬ FirstWritten ([] : List (Event α)) key place := by
  rintro ⟨before, value, after, h, -⟩
  simp at h

theorem stands_concat {e : Event α} :
    Stands (events ++ [e]) key value ↔
      e = .write key value ∨ e.key ≠ key ∧ Stands events key value := by
  constructor
  · rintro ⟨before, after, h, hafter⟩
    rcases concat_eq_split.mp h with ⟨-, he, -⟩ | ⟨rest, rfl, hevents⟩
    · exact .inl he.symm
    · obtain ⟨hrest, he⟩ := forall_mem_concat.mp hafter
      exact .inr ⟨he, before, rest, hevents, hrest⟩
  · rintro (rfl | ⟨he, before, after, hevents, hafter⟩)
    · exact ⟨events, [], rfl, by simp⟩
    · exact ⟨before, after ++ [e], concat_eq_split.mpr (.inr ⟨after, rfl, hevents⟩),
        forall_mem_concat.mpr ⟨hafter, he⟩⟩

theorem firstWritten_concat {e : Event α} :
    FirstWritten (events ++ [e]) key place ↔
      (place = events.length ∧ (∀ v, ¬ Stands events key v) ∧ ∃ value, e = .write key value) ∨
        e ≠ .erasure key ∧ FirstWritten events key place := by
  constructor
  · rintro ⟨before, value, after, h, hplace, hfirst, hafter⟩
    rcases concat_eq_split.mp h with ⟨rfl, he, -⟩ | ⟨rest, rfl, hevents⟩
    · exact .inl ⟨hplace.symm, hfirst, value, he.symm⟩
    · obtain ⟨hrest, he⟩ := forall_mem_concat.mp hafter
      exact .inr ⟨he, before, value, rest, hevents, hplace, hfirst, hrest⟩
  · rintro (⟨rfl, hfirst, value, rfl⟩ | ⟨he, before, value, after, hevents, hplace, hfirst, hafter⟩)
    · exact ⟨events, value, [], rfl, rfl, hfirst, by simp⟩
    · exact ⟨before, value, after ++ [e], concat_eq_split.mpr (.inr ⟨after, rfl, hevents⟩), hplace,
        hfirst, forall_mem_concat.mpr ⟨hafter, he⟩⟩

theorem firstWritten_write_of_ne (h : name ≠ key) :
    FirstWritten (events ++ [.write key value]) name place ↔ FirstWritten events name place := by
  simp [firstWritten_concat, h.symm]

theorem firstWritten_erasure :
    FirstWritten (events ++ [.erasure key]) name place ↔
      name ≠ key ∧ FirstWritten events name place := by
  simp [firstWritten_concat, eq_comm]

theorem FirstWritten.lt_length (h : FirstWritten events key place) : place < events.length := by
  obtain ⟨before, value, after, rfl, rfl, -⟩ := h
  simp

end

/-- The map holds what its journal tells. -/
structure Records (events : List (Event α)) (m : Keyed α) : Prop where
  once : m.keys.Nodup
  value : ∀ key value, m.get? key = some value ↔ Stands events key value
  present : ∀ key, key ∈ m.keys ↔ ∃ place, FirstWritten events key place
  order : m.keys.Pairwise fun key key' => ∀ place place',
    FirstWritten events key place → FirstWritten events key' place' → place < place'

namespace Records

variable {events : List (Event α)} {m : Keyed α} {key : String} {value : α} {place : Nat}

theorem nil : Records [] (empty : Keyed α) where
  once := List.nodup_nil
  value _ _ := ⟨nofun, fun h => absurd h not_stands_nil⟩
  present _ := ⟨nofun, fun ⟨_, h⟩ => absurd h not_firstWritten_nil⟩
  order := List.Pairwise.nil

theorem mem_keys_iff (h : Records events m) : key ∈ m.keys ↔ ∃ value, Stands events key value := by
  simp only [mem_keys_iff_exists, h.value]

theorem not_firstWritten (h : Records events m) (hkey : key ∉ m.keys) :
    ¬ FirstWritten events key place :=
  fun hplace => hkey ((h.present key).mpr ⟨place, hplace⟩)

/-- An overwrite leaves the name where it is, and a new name comes last. -/
theorem firstWritten_write (h : Records events m) :
    FirstWritten (events ++ [.write key value]) key place ↔
      if key ∈ m.keys then FirstWritten events key place else place = events.length := by
  rw [firstWritten_concat]
  split
  · next hkey =>
    obtain ⟨v, hv⟩ := h.mem_keys_iff.mp hkey
    have hstands : ¬ ∀ v, ¬ Stands events key v := fun hnone => hnone v hv
    simp [hstands]
  · next hkey =>
    have hnone : ∀ v, ¬ Stands events key v := fun v hv => hkey (h.mem_keys_iff.mpr ⟨v, hv⟩)
    simp [hnone, h.not_firstWritten hkey]

theorem write (h : Records events m) (key : String) (value : α) :
    Records (events ++ [.write key value]) (m.insert key value) where
  once := (m.insert key value).nodup
  value name v := by
    rw [get?_insert, stands_concat]
    by_cases hname : name = key
    · simp [hname, Event.key]
    · rw [if_neg hname, h.value]
      simp [Ne.symm hname, Event.key]
  present name := by
    by_cases hname : name = key
    · simp only [hname, h.firstWritten_write, keys_insert]
      by_cases hkey : key ∈ m.keys
      · simp only [if_pos hkey, h.present key]
      · simp [if_neg hkey]
    · simp only [firstWritten_write_of_ne hname, ← h.present name, keys_insert]
      split <;> simp [hname]
  order := by
    have hold {name : String} {place : Nat} (hname : name ∈ m.keys)
        (hp : FirstWritten (events ++ [.write key value]) name place) :
        FirstWritten events name place := by
      by_cases heq : name = key
      · subst heq
        rwa [h.firstWritten_write, if_pos hname] at hp
      · exact (firstWritten_write_of_ne heq).mp hp
    have hkept : m.keys.Pairwise fun name name' => ∀ place place',
        FirstWritten (events ++ [.write key value]) name place →
          FirstWritten (events ++ [.write key value]) name' place' → place < place' := by
      refine h.order.imp_of_mem fun hname hname' hlt place place' hp hp' => ?_
      exact hlt place place' (hold hname hp) (hold hname' hp')
    rw [keys_insert]
    split
    · exact hkept
    · next hkey =>
      refine List.pairwise_append.mpr ⟨hkept, List.pairwise_singleton _ _, ?_⟩
      intro name hname last hlast place place' hp hp'
      rw [List.mem_singleton.mp hlast, h.firstWritten_write, if_neg hkey] at hp'
      rw [hp']
      exact (hold hname hp).lt_length

theorem erase (h : Records events m) (key : String) :
    Records (events ++ [.erasure key]) (m.erase key) where
  once := (m.erase key).nodup
  value name v := by
    rw [get?_erase, stands_concat]
    by_cases hname : name = key
    · simp [hname, Event.key]
    · rw [if_neg hname, h.value]
      simp [Ne.symm hname, Event.key]
  present name := by
    simp only [firstWritten_erasure, keys_erase, h.once.mem_erase_iff, h.present name,
      exists_and_left]
  order := by
    rw [keys_erase]
    refine (h.order.sublist List.erase_sublist).imp fun hlt place place' hp hp' => ?_
    exact hlt place place' (firstWritten_erasure.mp hp).2 (firstWritten_erasure.mp hp').2

theorem perform (h : Records events m) (e : Event α) :
    Records (events ++ [e]) (e.perform m) := by
  cases e with
  | write key value => exact h.write key value
  | erasure key => exact h.erase key

theorem foldl (h : Records events m) (later : List (Event α)) :
    Records (events ++ later) (later.foldl Event.perform m) := by
  induction later generalizing events m with
  | nil => rwa [List.append_nil]
  | cons e rest ih =>
    rw [List.append_cons]
    exact ih (h.perform e)

end Records

end Keyed

namespace AttrSet

open Keyed

/-- A set that has this journal holds what the journal tells, hands back what stood there
before, keeps its order, and is compared without regard to the order. -/
structure Behaves (events : List (Event AttrValue)) (attrs : AttrSet) : Prop where
  records : Records events attrs
  exchanged : ∀ key value, (attrs.exchange key value).1 = attrs.get? key
  taken : ∀ key, (attrs.take key).1 = attrs.get? key
  overwritten : ∀ key value, key ∈ attrs.keys → (attrs.exchange key value).2.keys = attrs.keys
  appended : ∀ key value, key ∉ attrs.keys →
    (attrs.exchange key value).2.keys = attrs.keys ++ [key]
  shifted : ∀ key, (attrs.take key).2.keys = attrs.keys.filter fun name => name != key
  equal : ∀ other : AttrSet, AttrSet.same attrs other = true ↔
    (∀ key, key ∈ attrs.keys ↔ key ∈ other.keys) ∧
      ∀ key v w, attrs.get? key = some v → other.get? key = some w → v.Equal w
  reflexive : AttrSet.same attrs attrs = true ↔
    ∀ key x, attrs.get? key = some (.number x) → x.isNaN = false

/-- Whatever is done to a set that was empty at first. -/
theorem behaves_run (changes : List (Change AttrValue)) :
    Behaves (Change.journal changes) (Change.run changes) where
  records := by
    rw [Change.run_eq_foldl]
    exact Records.nil.foldl (Change.journal changes)
  exchanged key value := by rw [exchange_eq]
  taken key := by rw [take_eq]
  overwritten key value hkey := by rw [exchange_eq, keys_insert, if_pos hkey]
  appended key value hkey := by rw [exchange_eq, keys_insert, if_neg hkey]
  shifted key := by
    rw [take_eq, keys_erase]
    exact (Change.run changes).nodup.erase_eq_filter key
  equal _ := same_iff
  reflexive := same_self_iff

/-- What is written again after it was erased comes last. -/
example :
    (Change.run [.exchange "a" (.integer 1), .insertAll [("b", .integer 2), ("c", .flag true)],
      .exchange "b" (.integer 3), .take "a", .merge (.ofList [("c", .flag false)]),
      .insert "a" (.integer 4)]).toList =
    [("b", AttrValue.integer 3), ("c", .flag false), ("a", .integer 4)] := rfl

end AttrSet

end DotDiagram
