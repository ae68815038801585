/-! Finite maps from names to values that remember when each name was first
written. Writing a name again keeps its place, erasing one closes the gap, and
no name occurs twice. -/

namespace DotDiagram

/-- The names of a list of pairs, in order. -/
def keysOf {α : Type} (entries : List (String × α)) : List String :=
  entries.map Prod.fst

/-- A value is overwritten where its name stands, or added at the end. -/
def writeEntry {α : Type} (key : String) (value : α) :
    List (String × α) → List (String × α)
  | [] => [(key, value)]
  | (k, v) :: rest =>
    if k = key then (key, value) :: rest else (k, v) :: writeEntry key value rest

def eraseEntry {α : Type} (key : String) : List (String × α) → List (String × α)
  | [] => []
  | (k, v) :: rest => if k = key then rest else (k, v) :: eraseEntry key rest

/-- Writes a value, and hands back the one that it replaces. -/
def exchangeEntry {α : Type} (key : String) (value : α) :
    List (String × α) → Option α × List (String × α)
  | [] => (none, [(key, value)])
  | (k, v) :: rest =>
    if k = key then (some v, (key, value) :: rest)
    else
      let (old, rest) := exchangeEntry key value rest
      (old, (k, v) :: rest)

/-- Erases a value, and hands it back. -/
def takeEntry {α : Type} (key : String) : List (String × α) → Option α × List (String × α)
  | [] => (none, [])
  | (k, v) :: rest =>
    if k = key then (some v, rest)
    else
      let (old, rest) := takeEntry key rest
      (old, (k, v) :: rest)

def findEntry {α : Type} (key : String) : List (String × α) → Option α
  | [] => none
  | (k, v) :: rest => if k = key then some v else findEntry key rest

theorem keysOf_writeEntry {α : Type} (key : String) (value : α) (entries : List (String × α)) :
    keysOf (writeEntry key value entries) =
      if key ∈ keysOf entries then keysOf entries else keysOf entries ++ [key] := by
  induction entries with
  | nil => simp [writeEntry, keysOf]
  | cons e rest ih =>
    obtain ⟨k, v⟩ := e
    by_cases hk : k = key
    · simp [writeEntry, keysOf, hk]
    · have hk' : ¬ key = k := fun h => hk h.symm
      simp only [keysOf] at ih
      simp only [writeEntry, keysOf, hk, if_false, List.map_cons, List.mem_cons, hk', false_or, ih]
      split <;> simp_all

theorem nodup_keysOf_writeEntry {α : Type} {entries : List (String × α)}
    (h : (keysOf entries).Nodup) (key : String) (value : α) :
    (keysOf (writeEntry key value entries)).Nodup := by
  rw [keysOf_writeEntry]
  split
  · exact h
  · next hk =>
    rw [List.nodup_append]
    refine ⟨h, by simp, ?_⟩
    intro a ha b hb hab
    rw [List.mem_singleton] at hb
    exact hk (hb ▸ hab ▸ ha)

theorem keysOf_eraseEntry {α : Type} (key : String) (entries : List (String × α)) :
    keysOf (eraseEntry key entries) = (keysOf entries).erase key := by
  induction entries with
  | nil => rfl
  | cons e rest ih =>
    obtain ⟨k, v⟩ := e
    by_cases hk : k = key
    · simp [eraseEntry, keysOf, hk]
    · simp only [keysOf] at ih
      simp [eraseEntry, keysOf, hk, ih]

theorem exchangeEntry_eq {α : Type} (key : String) (value : α) (entries : List (String × α)) :
    exchangeEntry key value entries = (findEntry key entries, writeEntry key value entries) := by
  induction entries with
  | nil => rfl
  | cons e rest ih =>
    obtain ⟨k, v⟩ := e
    by_cases hk : k = key
    · simp [exchangeEntry, findEntry, writeEntry, hk]
    · simp [exchangeEntry, findEntry, writeEntry, hk, ih]

theorem takeEntry_eq {α : Type} (key : String) (entries : List (String × α)) :
    takeEntry key entries = (findEntry key entries, eraseEntry key entries) := by
  induction entries with
  | nil => rfl
  | cons e rest ih =>
    obtain ⟨k, v⟩ := e
    by_cases hk : k = key
    · simp [takeEntry, findEntry, eraseEntry, hk]
    · simp [takeEntry, findEntry, eraseEntry, hk, ih]

/-- A map with its names in the order of their first writing. -/
structure Keyed (α : Type) where
  toList : List (String × α)
  nodup : (keysOf toList).Nodup

namespace Keyed

variable {α : Type}

theorem ext {m n : Keyed α} (h : m.toList = n.toList) : m = n := by
  cases m
  cases n
  simp_all

instance [DecidableEq α] : DecidableEq (Keyed α) := fun m n =>
  if h : m.toList = n.toList then isTrue (ext h) else isFalse fun e => h (e ▸ rfl)

def empty : Keyed α := ⟨[], List.nodup_nil⟩

instance : EmptyCollection (Keyed α) := ⟨empty⟩

instance : Inhabited (Keyed α) := ⟨empty⟩

def keys (m : Keyed α) : List String := keysOf m.toList

def values (m : Keyed α) : List α := m.toList.map Prod.snd

def get? (m : Keyed α) (key : String) : Option α := findEntry key m.toList

def contains (m : Keyed α) (key : String) : Bool := (m.get? key).isSome

def size (m : Keyed α) : Nat := m.toList.length

def isEmpty (m : Keyed α) : Bool := m.toList.isEmpty

def insert (m : Keyed α) (key : String) (value : α) : Keyed α :=
  ⟨writeEntry key value m.toList, nodup_keysOf_writeEntry m.nodup key value⟩

def erase (m : Keyed α) (key : String) : Keyed α :=
  ⟨eraseEntry key m.toList, by rw [keysOf_eraseEntry]; exact m.nodup.erase key⟩

/-- Writes a value, and hands back what its name stood for. -/
def exchange (m : Keyed α) (key : String) (value : α) : Option α × Keyed α :=
  let result := exchangeEntry key value m.toList
  have nodup : (keysOf result.2).Nodup := by
    rw [show result = _ from exchangeEntry_eq key value m.toList]
    exact nodup_keysOf_writeEntry m.nodup key value
  (result.1, ⟨result.2, nodup⟩)

/-- Erases a name, and hands back what it stood for. -/
def take (m : Keyed α) (key : String) : Option α × Keyed α :=
  let result := takeEntry key m.toList
  have nodup : (keysOf result.2).Nodup := by
    rw [show result = _ from takeEntry_eq key m.toList, keysOf_eraseEntry]
    exact m.nodup.erase key
  (result.1, ⟨result.2, nodup⟩)

/-- Pairs are written one after another. -/
def insertAll (m : Keyed α) (entries : List (String × α)) : Keyed α :=
  entries.foldl (fun acc e => acc.insert e.1 e.2) m

def ofList (entries : List (String × α)) : Keyed α := empty.insertAll entries

/-- Everything in `n` is written over `m`. -/
def merge (m n : Keyed α) : Keyed α := m.insertAll n.toList

/-- Two maps agree when they have the same names and, name by name, values that
`same` accepts. The orders do not matter. -/
def agrees (same : α → α → Bool) (m n : Keyed α) : Bool :=
  m.size == n.size &&
    m.toList.all fun e => match n.get? e.1 with
      | some v => same e.2 v
      | none => false

theorem exchange_eq (m : Keyed α) (key : String) (value : α) :
    m.exchange key value = (m.get? key, m.insert key value) := by
  have h := exchangeEntry_eq key value m.toList
  have hold : (m.exchange key value).1 = m.get? key := congrArg Prod.fst h
  have hleft : (m.exchange key value).2.toList = (m.insert key value).toList := congrArg Prod.snd h
  exact Prod.ext hold (ext hleft)

theorem take_eq (m : Keyed α) (key : String) : m.take key = (m.get? key, m.erase key) := by
  have h := takeEntry_eq key m.toList
  have hold : (m.take key).1 = m.get? key := congrArg Prod.fst h
  have hleft : (m.take key).2.toList = (m.erase key).toList := congrArg Prod.snd h
  exact Prod.ext hold (ext hleft)

theorem keys_insert (m : Keyed α) (key : String) (value : α) :
    (m.insert key value).keys = if key ∈ m.keys then m.keys else m.keys ++ [key] :=
  keysOf_writeEntry key value m.toList

theorem keys_erase (m : Keyed α) (key : String) : (m.erase key).keys = m.keys.erase key :=
  keysOf_eraseEntry key m.toList

end Keyed

end DotDiagram
